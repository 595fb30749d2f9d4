import Aerobag.Server.Proofs.GcProofs
import Aerobag.Server.Proofs.OpenProofs

/-!
# The blob files of ready objects

A large ciphertext lives in a file, which a collection removes after it has deleted the row. Every
`ready` row and every call whose blob is written finds its file, and the collection in progress
spares it.
-/

open List Option Except

namespace Aerobag.Server

variable {P : Primitives} {cfg : StoreConfig} {db : Database} {bytes : Bytes} {fs fs' : BlobFiles}
  {key : String} {modified : Int} {gc : Option GcRun} {row : ObjectRow}

theorem validateOpaqueId_ok {v l : String} (h : validateOpaqueId v l = .ok ()) :
    ∀ c ∈ v.toList, c ≠ Char.ofNat 0 := by
  unfold validateOpaqueId at h
  split at h
  · simp at h
  · next hv =>
    rintro c hc rfl
    simp only [Bool.or_eq_true, Bool.not_eq_true', not_or, Bool.not_eq_false, List.all_eq_true] at hv
    exact absurd (hv.2 _ hc) (by decide)

/-- A storage key names one object. -/
theorem blobStorageKey_inj (hsh : Function.Injective P.sha256)
    {a a' oid oid' : String} {bs' : Bytes} (hid : validateOpaqueId oid "object ID" = .ok ())
    (hid' : validateOpaqueId oid' "object ID" = .ok ())
    (h : blobStorageKey P a oid (P.sha256Hex bytes) = blobStorageKey P a' oid' (P.sha256Hex bs')) :
    a = a' ∧ oid = oid' := by
  have hh bytes : 0 ∉ strBytes (P.sha256Hex bytes) := zero_notMem_strBytes_hexBytes _
  have hb := hsh (hexBytes_injective h)
  rw [append_sep_inj (hh _) (hh _), append_sep_inj (zero_notMem_strBytes (validateOpaqueId_ok hid))
      (zero_notMem_strBytes (validateOpaqueId_ok hid'))] at hb
  obtain ⟨⟨ha, hid⟩, -⟩ := hb
  exact ⟨strBytes_injective (append_cancel_left ha), strBytes_injective hid⟩

/-- A blob is written once: an existing file must have the same bytes. -/
theorem writeBlob_eq_ok (h : writeBlob fs key bytes modified = .ok fs') :
    (∃ f, fs.get? key = some f ∧ f.bytes = bytes ∧ fs' = fs) ∨
    fs.get? key = none ∧ fs' = fs.insert ⟨key, bytes, modified⟩ := by
  unfold writeBlob at h
  split at h
  · next f hfl =>
    split at h
    · next hb => exact .inl ⟨f, hfl, hb, (Except.ok.inj h).symm⟩
    · simp at h
  · next hn => exact .inr ⟨hn, (Except.ok.inj h).symm⟩

theorem writeBlob_get? {key' : String} {f : BlobFile}
    (h : writeBlob fs key bytes modified = .ok fs') (hfl : fs.get? key' = some f) :
    fs'.get? key' = some f := by
  obtain ⟨_, _, _, rfl⟩ | ⟨hn, rfl⟩ := writeBlob_eq_ok h
  · exact hfl
  · rw [Table.get?_insert hn, if_neg, hfl]
    rintro rfl
    simp [hn] at hfl

theorem writeBlob_written (h : writeBlob fs key bytes modified = .ok fs') :
    ∃ f, fs'.get? key = some f ∧ f.bytes = bytes ∧
      f.modifiedEpochMs = ((fs.get? key).map BlobFile.modifiedEpochMs).getD modified := by
  obtain ⟨f, hfl, hb, rfl⟩ | ⟨hn, rfl⟩ := writeBlob_eq_ok h
  · exact ⟨f, hfl, hb, by simp [hfl]⟩
  · exact ⟨_, (Table.get?_insert hn key).trans (if_pos rfl), rfl, by simp [hn]⟩

theorem get?_removeFileIfPresent {key' : String} (h : key' ≠ key) :
    (removeFileIfPresent fs key).get? key' = fs.get? key' :=
  Table.get?_deleteWhere_of_spares fun f hfl => by simp [hfl, h]

theorem Placement.blobKey?_eq_some {p : Placement} :
    p.blobKey? = some key ↔ p = .blobStorageKey key := by
  cases p <;> simp [Placement.blobKey?]

/-- Whether a collection that has come this far leaves a file with the given modification time
alone: its key is not among those it is going to unlink, and a row named it or it is young. -/
def GcRun.spares (key : String) (modifiedEpochMs : Int) : GcRun → Bool
  | .accounts _ _ collected => !collected.contains key
  | .blobKeys cutoff referenced remaining =>
    !remaining.contains key && (referenced.contains key ||
      decide (0 ≤ modifiedEpochMs ∧ modifiedEpochMs > cutoff))
  | .files cutoff referenced remaining =>
    !remaining.contains key || (referenced.contains key ||
      decide (0 ≤ modifiedEpochMs ∧ modifiedEpochMs > cutoff))

section Spares

variable {key : String} {modified cutoff : Int} {referenced remaining collected : List String}

@[simp] theorem GcRun.spares_accounts :
    GcRun.spares key modified (.accounts cutoff remaining collected) = true ↔ key ∉ collected := by
  simp [spares]

@[simp] theorem GcRun.spares_blobKeys :
    GcRun.spares key modified (.blobKeys cutoff referenced remaining) = true ↔
      key ∉ remaining ∧ (key ∈ referenced ∨ 0 ≤ modified ∧ cutoff < modified) := by
  simp [spares]

@[simp] theorem GcRun.spares_files :
    GcRun.spares key modified (.files cutoff referenced remaining) = true ↔
      (key ∈ remaining → key ∈ referenced ∨ 0 ≤ modified ∧ cutoff < modified) := by
  simp [spares, or_iff_not_imp_left]

end Spares

/-- The row describes this ciphertext. -/
def ObjectRow.Matches (P : Primitives) (row : ObjectRow) (ciphertext : Bytes) : Prop :=
  ciphertext.length = row.ciphertextBytes ∧ P.sha256Hex ciphertext = row.ciphertextSha256

/-- The row's ciphertext is where its placement says, and no collection is about to remove it. -/
inductive Stored (P : Primitives) (files : BlobFiles) (gc : Option GcRun) (row : ObjectRow) : Prop
  | inline {ciphertext : Bytes} (hplacement : row.placement = .inlineCiphertext ciphertext)
      (hmatches : row.Matches P ciphertext)
  | blob {key : String} {file : BlobFile} (hplacement : row.placement = .blobStorageKey key)
      (hfile : files.get? key = some file) (hmatches : row.Matches P file.bytes)
      (hspared : gc.all (GcRun.spares key file.modifiedEpochMs) = true)

theorem Stored.madeReady (h : Stored P fs gc row) : Stored P fs gc row.madeReady := by
  cases h with
  | inline hpc hm => exact .inline hpc hm
  | blob hpc hfl hm hsp => exact .blob hpc hfl hm hsp

theorem Stored.mono {gc' : Option GcRun} (h : Stored P fs gc row)
    (hkp : ∀ key f, row.placement = .blobStorageKey key → fs.get? key = some f →
      gc.all (GcRun.spares key f.modifiedEpochMs) = true → fs'.get? key = some f ∧
        gc'.all (GcRun.spares key f.modifiedEpochMs) = true) :
    Stored P fs' gc' row := by
  cases h with
  | inline hpc hm => exact .inline hpc hm
  | blob hpc hfl hm hsp =>
    obtain ⟨hfl, hsp⟩ := hkp _ _ hpc hfl hsp
    exact .blob hpc hfl hm hsp

theorem Stored.of_pendingBlobValid (h : pendingBlobValid P fs row = true) :
    Stored P fs none row := by
  simp only [pendingBlobValid, Option.any_eq_true, bind_eq_some_iff, decide_eq_true_eq] at h
  obtain ⟨f, ⟨key, hk, hfl⟩, hm⟩ := h
  exact .blob (Placement.blobKey?_eq_some.1 hk) hfl hm rfl

/-- A row's columns are as `create_object` computes them. -/
structure ObjectRow.Named (P : Primitives) (row : ObjectRow) : Prop where
  objectId : validateOpaqueId row.objectId "object ID" = .ok ()
  ciphertext : ∃ ciphertext, P.sha256Hex ciphertext = row.ciphertextSha256
  key : ∀ key, row.placement = .blobStorageKey key →
    key = blobStorageKey P row.accountLocator row.objectId row.ciphertextSha256

theorem ObjectRow.Named.key_eq (hsh : Function.Injective P.sha256) {row' : ObjectRow}
    (h : row.Named P) (h' : row'.Named P) (hk : row.placement = .blobStorageKey key)
    (hk' : row'.placement = .blobStorageKey key) : row.key = row'.key := by
  obtain ⟨ct, hcp⟩ := h.ciphertext
  obtain ⟨ct', hcp'⟩ := h'.ciphertext
  have heq := (h.key _ hk).symm.trans (h'.key _ hk')
  rw [← hcp, ← hcp'] at heq
  obtain ⟨ha, hid⟩ := blobStorageKey_inj hsh h.objectId h'.objectId heq
  rw [ObjectRow.key, ObjectRow.key, ha, hid]

/-- The pending row that the call has inserted. -/
structure CreateCall.Owns (P : Primitives) (call : CreateCall) (row : ObjectRow) : Prop where
  key : row.key = call.rowKey
  pending : row.state = .pending
  placement : row.placement = .blobStorageKey call.blobStorageKey
  ciphertext : row.Matches P call.ciphertext

/-- Every ready row has its blob, and every call under way its pending row. -/
structure BlobInv (P : Primitives) (objects : Table ObjectRow.key) (files : BlobFiles)
    (calls : Table CreateCall.callId) (gc : Option GcRun) : Prop where
  named : ∀ row ∈ objects.rows, row.Named P
  ready : ∀ row ∈ objects.rows, row.state = .ready → Stored P files gc row
  owned : ∀ call ∈ calls.rows, ∃ row ∈ objects.rows, call.Owns P row ∧
    (call.phase = .written → Stored P files gc row)
  distinct : ∀ call ∈ calls.rows, ∀ call' ∈ calls.rows, call.rowKey = call'.rowKey → call = call'

namespace BlobInv

variable {os os' : Table ObjectRow.key} {fs fs' : BlobFiles} {cs cs' : Table CreateCall.callId}
  {gc gc' : Option GcRun} {row : ObjectRow} {call : CreateCall} {key : String} {cutoff : Int}
  {remaining referenced : List String}

theorem mono (h : BlobInv P os fs cs gc)
    (hkp : ∀ row ∈ os.rows, Stored P fs gc row → Stored P fs' gc' row) :
    BlobInv P os fs' cs gc' where
  named := h.named
  ready row hr hrd := hkp row hr (h.ready row hr hrd)
  owned call hcl := by
    obtain ⟨row, hr, how, hwr⟩ := h.owned call hcl
    exact ⟨row, hr, how, fun hph => hkp row hr (hwr hph)⟩
  distinct := h.distinct

theorem delete (h : BlobInv P os fs cs gc) (hob : ∀ row ∈ os'.rows, row ∈ os.rows)
    (hca : ∀ c ∈ cs'.rows, c ∈ cs.rows)
    (hkp : ∀ c ∈ cs'.rows, ∀ row ∈ os.rows, c.Owns P row → row ∈ os'.rows) :
    BlobInv P os' fs cs' gc where
  named row hr := h.named row (hob row hr)
  ready row hr := h.ready row (hob row hr)
  owned c hcl := by
    obtain ⟨row, hr, how, hwr⟩ := h.owned c (hca c hcl)
    exact ⟨row, hkp c hcl row hr how, how, hwr⟩
  distinct c hcl call' hcl' := h.distinct c (hca _ hcl) call' (hca _ hcl')

theorem insert (h : BlobInv P os fs cs gc) (hn : os.get? row.key = none)
    (hnm : row.Named P) (hso : row.state = .ready → Stored P fs gc row) :
    BlobInv P (os.insert row) fs cs gc where
  named o ho := by
    obtain ho | rfl := (Table.mem_rows_insert hn).1 ho
    · exact h.named o ho
    · exact hnm
  ready o ho := by
    obtain ho | rfl := (Table.mem_rows_insert hn).1 ho
    · exact h.ready o ho
    · exact hso
  owned call hcl := by
    obtain ⟨o, ho, how⟩ := h.owned call hcl
    exact ⟨o, (Table.mem_rows_insert hn).2 (.inl ho), how⟩
  distinct := h.distinct

theorem insertCall (h : BlobInv P os fs cs gc) (hn : os.get? row.key = none)
    (hnm : row.Named P) (hcl : cs.get? call.callId = none) (how : call.Owns P row)
    (hph : call.phase = .inserted) : BlobInv P (os.insert row) fs (cs.insert call) gc := by
  have hr := h.insert hn hnm (by simp [how.pending])
  -- a call with the same row key would already have had a row under it
  have ho : ∀ o ∈ cs.rows, o.rowKey ≠ call.rowKey := by
    intro o ho hk
    obtain ⟨old, hold, hks, -⟩ := h.owned o ho
    exact Table.get?_eq_none.1 hn old hold (by rw [hks.key, hk, how.key])
  refine ⟨hr.named, hr.ready, fun o hm => ?_, fun o hm o' hm' hk => ?_⟩
  · obtain hm | rfl := (Table.mem_rows_insert hcl).1 hm
    · exact hr.owned o hm
    · exact ⟨row, (Table.mem_rows_insert hn).2 (.inr rfl), how, by simp [hph]⟩
  · obtain hold | hold := (Table.mem_rows_insert hcl).1 hm <;>
      obtain hold' | hold' := (Table.mem_rows_insert hcl).1 hm'
    · exact h.distinct o hold o' hold' hk
    · exact absurd (hold' ▸ hk) (ho o hold)
    · exact absurd (hold ▸ hk.symm) (ho o' hold')
    · rw [hold, hold']

theorem owns_of_key (h : BlobInv P os fs cs gc) (hcl : call ∈ cs.rows)
    (hr : row ∈ os.rows) (hk : row.key = call.rowKey) :
    call.Owns P row ∧ (call.phase = .written → Stored P fs gc row) := by
  obtain ⟨own, ho, how, hwr⟩ := h.owned call hcl
  obtain rfl := Table.eq_of_key_eq hr ho (hk.trans how.key.symm)
  exact ⟨how, hwr⟩

theorem others_of_ended {c : CreateCall} (h : BlobInv P os fs cs gc) {ci : Nat} {o : CreateCall}
    (hcl : cs.get? ci = some c) (ho : o ∈ (cs.deleteWhere fun c => c.callId = ci).rows) :
    o ∈ cs.rows ∧ o.rowKey ≠ c.rowKey := by
  obtain ⟨hcl, hid⟩ := Table.get?_eq_some.1 hcl
  obtain ⟨ho, hne⟩ := Table.mem_rows_deleteWhere.1 ho
  refine ⟨ho, fun hk => ?_⟩
  obtain rfl := h.distinct o ho c hcl hk
  simp [hid] at hne

theorem setPhase (h : BlobInv P os fs cs gc) {ci : Nat} {p : CreatePhase}
    (hwr : p = .written → ∀ c ∈ cs.rows, c.callId = ci →
      ∀ row ∈ os.rows, c.Owns P row → Stored P fs gc row) :
    BlobInv P os fs (cs.updateWhere (fun c => c.callId = ci)
      (fun c => { c with phase := p }) fun _ => rfl) gc := by
  refine ⟨h.named, h.ready, fun c hcl => ?_, fun c hcl c' hcl' hk => ?_⟩
  · obtain ⟨old, hl, rfl⟩ := Table.mem_rows_updateWhere.1 hcl
    obtain ⟨row, hr, how, hso⟩ := h.owned old hl
    by_cases hid : old.callId = ci
    · simp only [hid]
      exact ⟨row, hr, ⟨how.key, how.pending, how.placement, how.ciphertext⟩,
        fun hph => hwr hph old hl hid row hr how⟩
    · simp only [hid]
      exact ⟨row, hr, how, hso⟩
  · obtain ⟨old, hl, rfl⟩ := Table.mem_rows_updateWhere.1 hcl
    obtain ⟨old', hol', rfl⟩ := Table.mem_rows_updateWhere.1 hcl'
    have hrw (c : CreateCall) : (if decide (c.callId = ci) = true then
        { c with phase := p } else c).rowKey = c.rowKey := by split <;> rfl
    rw [hrw, hrw] at hk
    rw [h.distinct old hl old' hol' hk]

theorem markReady (h : BlobInv P db.objects fs cs gc) {a oid : String}
    (hca : ∀ c ∈ cs'.rows, c ∈ cs.rows ∧ c.rowKey ≠ (a, oid))
    (hso : ∀ row ∈ db.objects.rows, row.key = (a, oid) → row.state = .pending →
      Stored P fs gc row) : BlobInv P (Server.markReady db a oid).objects fs cs' gc := by
  refine ⟨fun row hr => ?_, fun row hr hrd => ?_, fun c hcl => ?_,
    fun c hcl c' hcl' => h.distinct c (hca _ hcl).1 c' (hca _ hcl').1⟩
  · obtain ⟨hr, -⟩ | ⟨old, hl, -, -, rfl⟩ := mem_markReady.1 hr
    · exact h.named row hr
    · exact ⟨(h.named old hl).objectId, (h.named old hl).ciphertext, (h.named old hl).key⟩
  · obtain ⟨hr, -⟩ | ⟨old, hl, hk, hst, rfl⟩ := mem_markReady.1 hr
    · exact h.ready row hr hrd
    · exact (hso old hl hk hst).madeReady
  · obtain ⟨hcl, hne⟩ := hca c hcl
    obtain ⟨row, hr, how, hwr⟩ := h.owned c hcl
    exact ⟨row, mem_markReady.2 (.inl ⟨hr, fun hk => hne (how.key.symm.trans hk.1)⟩), how, hwr⟩

theorem writeBlob (h : BlobInv P os fs cs gc) {bs : Bytes} {m : Int}
    (hwr : Server.writeBlob fs key bs m = .ok fs') : BlobInv P os fs' cs gc := by
  refine h.mono fun row hr hso => hso.mono fun key' f _ hfl hsp => ?_
  exact ⟨writeBlob_get? hwr hfl, hsp⟩

theorem gcAccount (hsh : Function.Injective P.sha256) {a : String} {c : List String}
    (h : BlobInv P db.objects fs cs (some (.accounts cutoff (a :: remaining) c)))
    (hyn : ∀ cl ∈ cs.rows, ∀ row ∈ db.objects.rows, cl.Owns P row → row.accountLocator = a →
      row.createdAtEpochMs > cutoff) :
    BlobInv P (Server.gcAccount db a cutoff).1.objects fs cs (some (.accounts cutoff remaining
        (c ++ (Server.gcAccount db a cutoff).2))) := by
  have hkp : BlobInv P (Server.gcAccount db a cutoff).1.objects fs cs
      (some (.accounts cutoff (a :: remaining) c)) := by
    refine h.delete (fun row hr => (mem_gcAccount_objects.1 hr).1) (fun cl => id) ?_
    intro cl hcl row hr how
    refine mem_gcAccount_objects.2 ⟨hr, ?_⟩
    by_cases ha : row.accountLocator = a
    · simp [gcDeletes, hyn cl hcl row hr how ha]
    · simp [gcDeletes, ha]
  refine hkp.mono fun row hr hso => hso.mono fun key f hk hfl hsp => ⟨hfl, ?_⟩
  rw [all_some, GcRun.spares_accounts] at hsp ⊢
  rw [mem_append, not_or]
  refine ⟨hsp, fun hco => ?_⟩
  simp only [Server.gcAccount, mem_filterMap, mem_filter] at hco
  obtain ⟨d, ⟨hm, hd⟩, hdl⟩ := hco
  obtain ⟨hr, hnt⟩ := mem_gcAccount_objects.1 hr
  have hsm := (h.named d hm).key_eq hsh (h.named row hr) (Placement.blobKey?_eq_some.1 hdl) hk
  rw [Table.eq_of_key_eq hm hr hsm, hnt] at hd
  simp at hd

theorem gcReferenced {c : List String}
    (h : BlobInv P db.objects fs cs (some (.accounts cutoff [] c))) : BlobInv P db.objects fs cs
      (some (.blobKeys cutoff (referencedBlobKeys db) c)) := by
  refine h.mono fun row hr hso => hso.mono fun key f hk hfl hsp => ⟨hfl, ?_⟩
  have hrf : key ∈ referencedBlobKeys db :=
    mem_filterMap.2 ⟨row, hr, Placement.blobKey?_eq_some.2 hk⟩
  simpa [hrf] using hsp

theorem gcUnlink (h : BlobInv P os fs cs (some (.blobKeys cutoff referenced (key :: remaining)))) :
    BlobInv P os (removeFileIfPresent fs key) cs
      (some (.blobKeys cutoff referenced remaining)) := by
  refine h.mono fun row hro hso => hso.mono fun key' f _ hfl hsp => ?_
  rw [all_some, GcRun.spares_blobKeys, mem_cons, not_or] at hsp
  obtain ⟨⟨hne, hr⟩, hkp⟩ := hsp
  rw [get?_removeFileIfPresent hne, all_some, GcRun.spares_blobKeys]
  exact ⟨hfl, hr, hkp⟩

theorem gcList (l : List String) (h : BlobInv P os fs cs (some (.blobKeys cutoff referenced []))) :
    BlobInv P os fs cs (some (.files cutoff referenced l)) := by
  refine h.mono fun row hr hso => hso.mono fun key f _ hfl hsp => ⟨hfl, ?_⟩
  rw [all_some, GcRun.spares_blobKeys] at hsp
  rw [all_some, GcRun.spares_files]
  exact fun _ => hsp.2

theorem gcKeep (h : BlobInv P os fs cs (some (.files cutoff referenced (key :: remaining)))) :
    BlobInv P os fs cs (some (.files cutoff referenced remaining)) := by
  refine h.mono fun row hro hso => hso.mono fun key' f _ hfl hsp => ⟨hfl, ?_⟩
  rw [all_some, GcRun.spares_files] at hsp ⊢
  exact fun hr => hsp (mem_cons_of_mem _ hr)

theorem gcSweep (h : BlobInv P os fs cs (some (.files cutoff referenced (key :: remaining))))
    (hsw : sweepKeeps cutoff referenced fs key = false) :
    BlobInv P os (removeFileIfPresent fs key) cs (some (.files cutoff referenced remaining)) := by
  refine h.mono fun row hro hso => hso.mono fun key' f _ hfl hsp => ?_
  rw [all_some, GcRun.spares_files] at hsp ⊢
  have hne : key' ≠ key := by
    rintro rfl
    obtain hrf | hyn := hsp mem_cons_self
    · simp [sweepKeeps, hrf] at hsw
    · simp [sweepKeeps, hfl, hyn] at hsw
  rw [get?_removeFileIfPresent hne]
  exact ⟨hfl, fun hr => hsp (mem_cons_of_mem _ hr)⟩

end BlobInv

/-- The condition on a step under which it keeps the blobs of ready objects. An account transaction
of the collection, or the deletion of an account, finds no old row of a call in progress in the
account; and a call does not write, or find, its file when the collection in progress is going to
remove it. -/
def Store.keepsBlobs (s : Store) : Label → Bool
  | .gcStep _ => match s.gc with
    | some (.accounts cutoff (account :: _) _) => s.calls.rows.all fun call =>
        call.accountLocator ≠ account || (s.db.objects.get? call.rowKey).all fun row =>
          decide (row.createdAtEpochMs > cutoff)
    | _ => true
  | .deleteAccount account => s.calls.rows.all fun call => call.accountLocator ≠ account
  | .writeBlob callId (.completed modified) => (s.calls.get? callId).all fun call =>
      s.gc.all (GcRun.spares call.blobStorageKey
        (((s.files.get? call.blobStorageKey).map BlobFile.modifiedEpochMs).getD modified))
  | _ => true

namespace BlobInv

variable {s s' : Store}

theorem step (hsh : Function.Injective P.sha256) {l : Label}
    (hst : s.step P cfg l = some s') (hok : s.keepsBlobs l = true) (hop : OpenInv s)
    (h : BlobInv P s.db.objects s.files s.calls s.gc) :
    BlobInv P s'.db.objects s'.files s'.calls s'.gc := by
  cases Store.effect_of_step hst with
  | crash =>
    have hca : BlobInv P s.db.objects s.files .empty s.gc :=
      h.delete (fun row => id) (by simp) (by simp)
    exact hca.mono fun row _ hso => hso.mono fun key f _ hfl _ => ⟨hfl, rfl⟩
  | openStore _ hrpr =>
    obtain ⟨m, rfl⟩ := repairStorageAccounting_ok hrpr
    exact h
  | createAccount =>
    obtain hdb | ⟨_, _, _, _, hdb⟩ := createAccount_snd _ _ <;> rw [hdb] <;> exact h
  | createObjectInline _ hob hn _ hrs =>
    obtain ⟨_, _, _, _, _, _, _, _, _, _, _, _, rfl⟩ := reserveAccountUsage_ok hrs
    obtain ⟨hid, rfl, -, -, hha, -⟩ := prepareObject_ok hob
    exact h.insert hn ⟨hid, ⟨_, hha⟩, nofun⟩ fun _ => .inline rfl ⟨rfl, hha⟩
  | createObjectPending _ hob hcl hn _ hrs hk =>
    obtain ⟨_, _, _, _, _, _, _, _, _, _, _, _, rfl⟩ := reserveAccountUsage_ok hrs
    obtain ⟨hid, rfl, -, -, hha, -⟩ := prepareObject_ok hob
    refine h.insertCall hn ⟨hid, ⟨_, hha⟩, ?_⟩ hcl ⟨rfl, rfl, rfl, rfl, hha⟩ rfl
    rintro key' hk'
    exact (Placement.blobStorageKey.inj hk').symm.trans hk
  | blobWritten _ hcl _ hwr =>
    obtain ⟨hm, hid⟩ := Table.get?_eq_some.1 hcl
    obtain ⟨f, hfl, hb, hmd⟩ := writeBlob_written hwr
    simp only [Store.keepsBlobs, hcl, all_some, ← hmd] at hok
    refine (h.writeBlob hwr).setPhase fun _ c hcl hid' row _ how => ?_
    obtain rfl := Table.eq_of_key_eq hm hcl (hid.trans hid'.symm)
    exact .blob how.placement hfl (hb ▸ how.ciphertext) hok
  | blobFailed _ _ _ hs =>
    obtain rfl | ⟨_, hwr⟩ := hs
    · exact h.setPhase (by simp)
    · exact (h.writeBlob hwr).setPhase (by simp)
  | markReady _ hcl hph =>
    refine h.markReady (fun o ho => h.others_of_ended hcl ho) fun row hr hk _ => ?_
    exact (h.owns_of_key (Table.get?_eq_some.1 hcl).1 hr hk).2 hph
  | removePending _ hcl =>
    refine h.delete (fun row hr => (mem_deletePending.1 hr).1)
      (fun o ho => (h.others_of_ended hcl ho).1) fun o ho row hr how => ?_
    obtain ⟨-, hne⟩ := h.others_of_ended hcl ho
    exact mem_deletePending.2 ⟨hr, fun hk => hne (how.key.symm.trans hk.1)⟩
  | abandonCall =>
    exact h.delete (fun row => id) (fun o ho => (Table.mem_rows_deleteWhere.1 ho).1)
      fun _ _ _ hr _ => hr
  | rootCommitted _ _ _ _ _ hrp =>
    obtain ⟨_, _, _, _, _, _, _, _, _, rfl⟩ := replaceAccountRootUsage_ok hrp
    exact h
  | startGc _ hgc =>
    exact h.mono fun row _ hso => hso.mono fun key f _ hfl _ => ⟨hfl, by simp [startGc]⟩
  | gcAccount _ hgc =>
    simp only [Store.keepsBlobs, hgc, List.all_eq_true, Bool.or_eq_true, decide_eq_true_eq] at hok
    refine (hgc ▸ h).gcAccount hsh fun c hcl row hr how ha => ?_
    obtain hne | hyn := hok c hcl
    · exact absurd ((Prod.mk.inj how.key).1.symm.trans ha) hne
    · simpa [← how.key, Table.get?_key hr] using hyn
  | gcReferenced _ hgc => exact (hgc ▸ h).gcReferenced
  | gcUnlink _ hgc => exact (hgc ▸ h).gcUnlink
  | gcList _ hgc => exact (hgc ▸ h).gcList _
  | gcKeep _ hgc => exact (hgc ▸ h).gcKeep
  | gcSweep _ hgc hsw => exact (hgc ▸ h).gcSweep hsw
  | gcDone | gcAbort => exact h.mono fun row _ hso => hso.mono fun key f _ hfl _ => ⟨hfl, rfl⟩
  | setAccountQuota => obtain hdb | ⟨_, hdb⟩ := setAccountQuota_snd _ <;> rw [hdb] <;> exact h
  | deleteAccount =>
    simp only [Store.keepsBlobs, List.all_eq_true, decide_eq_true_eq] at hok
    refine h.delete (fun row hr => (Table.mem_rows_deleteWhere.1 hr).1) (fun c => id) ?_
    intro c hcl row hr how
    refine Table.mem_rows_deleteWhere.2 ⟨hr, decide_eq_false fun ha => ?_⟩
    exact hok c hcl ((Prod.mk.inj how.key).1.symm.trans ha)
  | reconcileReady hpr hv =>
    obtain ⟨hca, hgc⟩ := hop.idle (by simp [hpr])
    obtain ⟨hm, -⟩ := (hop.remaining _ _ hpr).2 _ mem_cons_self
    refine h.markReady (by simp [hca]) fun row hr hk _ => ?_
    obtain rfl := Table.eq_of_key_eq hr hm hk
    rw [hgc]
    exact .of_pendingBlobValid hv
  | reconcileDelete hpr =>
    obtain ⟨hca, -⟩ := hop.idle (by simp [hpr])
    exact h.delete (fun row hr => (mem_deletePending.1 hr).1) (fun c => id) (by simp [hca])
  | _ => exact h

end BlobInv

/-- A stored object can be read. -/
theorem readObject_of_stored (h : row ∈ db.objects.rows) (hre : row.state = .ready)
    (hnm : row.Named P) (hso : Stored P fs gc row)
    (hrb : ensureAccountReadable db row.accountLocator = .ok ()) : ∃ ct, row.Matches P ct ∧
    readObject P db fs row.accountLocator row.objectId (.ok ()) = .ok
        { objectId := row.objectId
          value := ⟨P.base64UrlEncode ct, row.ciphertextSha256, row.childObjectIds⟩
          createdAtEpochMs := row.createdAtEpochMs } := by
  have hfd : (db.objects.get? (row.accountLocator, row.objectId)).filter
      (fun row => row.state = .ready) = some row := by
    rw [show (row.accountLocator, row.objectId) = row.key from rfl, Table.get?_key h]
    simp [hre]
  have hrd : ∃ ct, readPlacedCiphertext fs row.placement = .ok ct ∧ row.Matches P ct := by
    cases hso with
    | inline hpc hm => exact ⟨_, by simp [hpc, readPlacedCiphertext], hm⟩
    | blob hpc hfl hm => exact ⟨_, by simp [hpc, readPlacedCiphertext, hfl], hm⟩
  obtain ⟨ct, hrd, hm⟩ := hrd
  refine ⟨ct, hm, ?_⟩
  obtain ⟨hl, hha⟩ := hm
  simp only [readObject, bind_eq_ok, hfd]
  exact ⟨(), hnm.objectId, (), hrb, ct, hrd, (), by simp [hl, hha], (), trivial, rfl⟩

/-- In every run from a new store in which calls in progress keep their rows and do not meet a
collection about to remove their file, every `ready` object can be read back. -/
theorem ready_object_stored (hsha : Function.Injective P.sha256) {s : Store} {labels : List Label}
    (hrun : Run.exec (Store.step P cfg) .created labels = some s)
    (hok : Run.Steps (Store.step P cfg) (fun s label => s.keepsBlobs label = true) .created labels)
    {row : ObjectRow} (hrow : row ∈ s.db.objects.rows) (hready : row.state = .ready) :
    (∀ key, row.placement = .blobStorageKey key → ∃ file, s.files.get? key = some file ∧
      row.Matches P file.bytes ∧ ∀ ciphertext, row.Matches P ciphertext → file.bytes = ciphertext) ∧
    (ensureAccountReadable s.db row.accountLocator = .ok () →
      ∃ ciphertext, row.Matches P ciphertext ∧
        readObject P s.db s.files row.accountLocator row.objectId (.ok ()) = .ok
          { objectId := row.objectId
            value := ⟨P.base64UrlEncode ciphertext, row.ciphertextSha256, row.childObjectIds⟩
            createdAtEpochMs := row.createdAtEpochMs }) := by
  have hcr : OpenInv .created ∧ BlobInv P Store.created.db.objects Store.created.files
      Store.created.calls Store.created.gc :=
    ⟨.created, by constructor <;> simp [Store.created, Database.initialized]⟩
  obtain ⟨-, hin⟩ := Run.exec_inv_of_steps
    (fun s => OpenInv s ∧ BlobInv P s.db.objects s.files s.calls s.gc)
    (fun hst hok h => ⟨h.1.step hst, h.2.step hsha hst hok h.1⟩) hcr hrun hok
  have hso := hin.ready row hrow hready
  refine ⟨fun key hk => ?_, readObject_of_stored hrow hready (hin.named row hrow) hso⟩
  cases hso with
  | inline hpc => simp [hpc] at hk
  | blob hpc hfl hm =>
    obtain rfl : _ = key := Placement.blobStorageKey.inj (hpc.symm.trans hk)
    exact ⟨_, hfl, hm, fun ciphertext hcp => hsha (hexBytes_injective (hm.2.trans hcp.2.symm))⟩

/-- SHA-256 and base64 of what creating the object `large` with the ciphertext `large` computes: the
digest of the ciphertext, of the authenticated value, and of the blob key. -/
def largePrimitives : Primitives :=
  { Primitives.transparent with
    sha256 := recordedHash
      [(strBytes "large",
        beBytes 32 0xd35c416a85b807e9b5384915d6ebb4a9f7352713efd89857b45a242f473728a9),
      (strBytes "aerobag-cloud-encrypted-value-v1" ++ [0] ++ strBytes "object" ++ [0] ++
        [0, 0, 0, 5] ++ strBytes "large" ++ [0, 0, 0, 0] ++
        strBytes "d35c416a85b807e9b5384915d6ebb4a9f7352713efd89857b45a242f473728a9",
        beBytes 32 0xf758bc6c3f0b1e80d07978fa61796bea58f7b5324e2165e770898f310bbb640b),
      (strBytes "aerobag-cloud-blob-v2" ++ [0] ++ strBytes "account" ++ [0] ++ strBytes "large" ++
        [0] ++ strBytes "d35c416a85b807e9b5384915d6ebb4a9f7352713efd89857b45a242f473728a9",
        beBytes 32 0x3eaf06eb8bc4d3e182594094cf92150d1f1f6b9943c2af2304635f1c0e8859a4)]
    base64UrlEncode := fun bytes => if bytes = strBytes "large" then "bGFyZ2U" else hexBytes bytes
    base64UrlDecode := fun text => if text = "bGFyZ2U" then some (strBytes "large") else none }

def largeCiphertext : AcsEncryptedValue :=
  ⟨"bGFyZ2U", "d35c416a85b807e9b5384915d6ebb4a9f7352713efd89857b45a242f473728a9", []⟩

/-- A large object is written while a collection runs that started before it was created. -/
def writeDuringCollection : List Label :=
  [.createAccount "account" "key" [], .startGc 1000 100,
    .createObject 0 "account" "large" largeCiphertext 1000 1, .gcStep [],
    .writeBlob 0 (.completed 1000), .gcStep [], .markReady 0,
    .gcStep ["3eaf06eb8bc4d3e182594094cf92150d1f1f6b9943c2af2304635f1c0e8859a4"], .gcStep [],
    .gcStep []]

/-- A blob that is written during a collection outlives it. -/
theorem ready_object_stored_writeDuringCollection :
    ∃ s, Run.exec (Store.step largePrimitives .small) .created writeDuringCollection = some s ∧
      ∃ row key file, s.db.objects.get? ("account", "large") = some row ∧
        row.placement = .blobStorageKey key ∧ s.files.get? key = some file ∧
        row.Matches largePrimitives file.bytes := by
  have hsh : Function.Injective largePrimitives.sha256 :=
    recordedHash_injective ⟨by decide, by decide, by decide⟩
  have hch : (Run.exec (Store.step largePrimitives .small) .created writeDuringCollection).any
      (fun s => (s.db.objects.get? ("account", "large")).any fun row =>
        row.state = .ready && row.placement.blobKey?.isSome) = true := by decide +kernel
  obtain ⟨s, hr, h⟩ := Run.exists_of_any hch
  simp only [Option.any_eq_true, Bool.and_eq_true, decide_eq_true_eq, isSome_iff_exists] at h
  obtain ⟨row, hg, hrd, key, hk⟩ := h
  have hpc := Placement.blobKey?_eq_some.1 hk
  obtain ⟨file, hfl, hm, -⟩ := (ready_object_stored hsh hr (by decide +kernel)
    (Table.get?_eq_some.1 hg).1 hrd).1 key hpc
  exact ⟨s, hr, row, key, file, hg, hpc, hfl, hm⟩

/-- An object is created again after a collection has deleted its row, and before the collection
removes the blob file of the deleted row. -/
def recreateDuringCollection : List Label :=
  [.createAccount "account" "key" [], .createObject 0 "account" "large" largeCiphertext 0 1,
    .writeBlob 0 (.completed 0), .markReady 0, .startGc 1000 100, .gcStep [],
    .createObject 1 "account" "large" largeCiphertext 1000 1, .writeBlob 1 (.completed 1000),
    .gcStep [], .gcStep [], .markReady 1]

/-- In `recreateDuringCollection` the second call finds the old file and keeps it, and the
collection then removes it: the object is `ready` and cannot be read. -/
theorem ready_object_without_blob :
    (Run.exec (Store.step largePrimitives .small) .created recreateDuringCollection).any (fun s =>
      ((s.db.objects.get? ("account", "large")).any fun row =>
        row.state = .ready &&
          row.placement.blobKey?.any fun key => (s.files.get? key).isNone) &&
      decide (readObject largePrimitives s.db s.files "account" "large" (.ok ()) =
        .error (.io "read cloud blob" "No such file or directory"))) = true := by
  decide +kernel

end Aerobag.Server
