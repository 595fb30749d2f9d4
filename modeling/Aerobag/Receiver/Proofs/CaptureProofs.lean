import Aerobag.Lib.Run
import Aerobag.Receiver.Capture

/-!
# Capture files survive truncation

The file of a `CaptureWriter` is a beginning of the encodings of records, and a `CaptureReader`
reads from it the records that are whole.
-/

open List Option

namespace Aerobag.Receiver

namespace CaptureRecord

variable (r : CaptureRecord)

theorem length_body : r.body.length = r.size := by
  simp only [body, size, recordMetadataBytes, length_append, length_leBytes, length_cons,
    length_nil]

theorem length_encode : r.encode.length = CaptureWriter.encodedRecordBytes r.bytes.length := by
  simp only [encode, CaptureWriter.encodedRecordBytes, length_append, length_leBytes,
    length_body, size, Sha256.length_digest, hashBytes]
  omega

def rest : Bytes := r.body ++ Sha256.digest (leBytes 4 r.size ++ r.body)

theorem encode_eq : r.encode = leBytes 4 r.size ++ r.rest := by simp [encode, rest]

theorem length_rest : r.rest.length = r.size + hashBytes := by
  simp [rest, length_body, Sha256.length_digest, hashBytes]

variable {r}

theorem leNat_size (h : r.bytes.length ≤ maxChunkBytes) : leNat (leBytes 4 r.size) = r.size := by
  refine leNat_leBytes ?_
  unfold size recordMetadataBytes maxChunkBytes at *
  omega

theorem ofCode_code (k : CaptureKind) : CaptureKind.ofCode 2 k.code = some k := by cases k <;> rfl

theorem uint64_leNat_leBytes (n : UInt64) : UInt64.ofNat (leNat (leBytes 8 n.toNat)) = n := by
  rw [leNat_leBytes n.toNat_lt, UInt64.ofNat_toNat]

theorem fields_rest (r : CaptureRecord) : r.rest.take 8 = leBytes 8 r.sequence.toNat ∧
    r.rest.getD 8 0 = r.kind.code ∧
    between r.rest 9 17 = leBytes 8 r.monotonicMs.toNat ∧
    between r.rest 17 25 = leBytes 8 r.wallEpochMs.toUInt64.toNat ∧
    between r.rest 25 r.size = r.bytes := by
  have hal : At r.rest 0 (leBytes 8 r.sequence.toNat ++ ([r.kind.code] ++
      (leBytes 8 r.monotonicMs.toNat ++ (leBytes 8 r.wallEpochMs.toUInt64.toNat ++ (r.bytes ++
        Sha256.digest (leBytes 4 r.size ++ r.body)))))) := by
    refine ⟨[], [], ?_, rfl⟩
    simp [rest, body]
  have hkd := hal.right
  have hmn := hkd.right
  have hwl := hmn.right
  have hb := hwl.right
  simp only [length_leBytes] at hkd hmn hwl hb
  refine ⟨?_, ?_, ?_, ?_, ?_⟩
  · simpa [between] using hal.left.between_eq
  · obtain ⟨pre, p, heq, hp⟩ := hkd
    rw [heq, getD_eq_getElem?_getD, append_assoc]
    simp [hp]
  · simpa using hmn.left.between_eq
  · simpa using hwl.left.between_eq
  · simpa [size, recordMetadataBytes] using hb.left.between_eq

end CaptureRecord

namespace CaptureReader

open CaptureRecord

/-- The reader takes this record next. -/
structure Expects (reader : CaptureReader) (r : CaptureRecord) : Prop where
  version : reader.version = 2
  running : reader.ended = false
  sequence : r.sequence = reader.nextSequence
  clock : ∀ previous ∈ reader.lastMonotonicMs, previous ≤ r.monotonicMs
  short : r.bytes.length ≤ maxChunkBytes

variable {sl : CaptureReader} {r : CaptureRecord}

theorem decode_encode (h : sl.Expects r) : sl.decode (leBytes 4 r.size) r.rest = .ok r := by
  obtain ⟨hsq, hkd, hmn, hwl, hb⟩ := fields_rest r
  have hsz := leNat_size h.short
  have htk : r.rest.take r.size = r.body := by rw [rest, take_left' r.length_body]
  have hdr : r.rest.drop r.size = Sha256.digest (leBytes 4 r.size ++ r.body) := by
    rw [rest, drop_left' r.length_body]
  have hcl : ¬sl.lastMonotonicMs.any (r.monotonicMs < ·) := by
    cases hl : sl.lastMonotonicMs with
    | none => simp
    | some p => simpa using h.clock p hl
  simp only [decode, hsz, htk, hdr, hsq, hkd, hmn, hwl, hb, h.version,
    ofCode_code, uint64_leNat_leBytes]
  rw [Except.rejectIf, if_neg (by simp), Except.rejectIf, if_neg (by simp [h.sequence, hcl])]
  rfl

theorem readRecord_of_length (hl : sl.input.take 4 = leBytes 4 r.size)
    (hsh : r.bytes.length ≤ maxChunkBytes) : sl.readRecord =
      match readExact (r.size + hashBytes) (sl.input.drop 4) with
      | none => .ok (.tornTail, sl)
      | some (body, input) => do
        let rec ← sl.decode (leBytes 4 r.size) body return (.record rec, { sl with
          input
          nextSequence := sl.nextSequence + 1
          lastMonotonicMs := some rec.monotonicMs }) := by
  have hfr : 4 ≤ sl.input.length := by
    have hc := congrArg List.length hl
    rw [length_take, length_leBytes] at hc
    omega
  have hf : readExact 1 sl.input = some (sl.input.take 1, sl.input.drop 1) := if_pos (by omega)
  have hmr : readExact 3 (sl.input.drop 1) = some ((sl.input.drop 1).take 3, sl.input.drop 4) := by
    rw [readExact, if_pos, drop_drop]
    rw [length_drop]
    omega
  have hap : sl.input.take 1 ++ (sl.input.drop 1).take 3 = leBytes 4 r.size := by
    rw [← hl, ← take_add]
  have hsz : ¬(r.size < recordMetadataBytes ∨ recordMetadataBytes + maxChunkBytes < r.size) := by
    unfold size
    omega
  unfold readRecord
  simp only [hf, hmr, hap, leNat_size hsh]
  exact (if_neg hsz).trans rfl

theorem readRecord_encode (h : sl.Expects r) {i : Bytes} (hin : sl.input = r.encode ++ i) :
    sl.readRecord = .ok (.record r, { sl with
      input := i
      nextSequence := sl.nextSequence + 1
      lastMonotonicMs := some r.monotonicMs }) := by
  have hl : (leBytes 4 r.size).length = 4 := length_leBytes 4 r.size
  rw [encode_eq, append_assoc] at hin
  have htk : sl.input.take 4 = leBytes 4 r.size := by rw [hin, take_left' hl]
  have hrd : readExact (r.size + hashBytes) (sl.input.drop 4) = some (r.rest, i) := by
    rw [hin, drop_left' hl, readExact, if_pos, take_left' r.length_rest, drop_left' r.length_rest]
    rw [length_append, length_rest]
    omega
  rw [readRecord_of_length htk h.short, hrd]
  simp only [decode_encode h]
  rfl

theorem readRecord_torn (hsh : r.bytes.length ≤ maxChunkBytes) (hbg : sl.input <+: r.encode)
    (hne : sl.input ≠ []) (hlt : sl.input.length < r.encode.length) :
    sl.readRecord = .ok (.tornTail, sl) := by
  have hp := length_pos_iff.2 hne
  by_cases hfr : sl.input.length < 4
  · have hf : readExact 1 sl.input = some (sl.input.take 1, sl.input.drop 1) := if_pos hp
    have hmr : readExact 3 (sl.input.drop 1) = none := by
      rw [readExact, if_neg]
      rw [length_drop]
      omega
    unfold readRecord
    simp only [hf, hmr]
  · obtain ⟨ms, hms⟩ := hbg
    rw [encode_eq] at hms hlt
    have htk : sl.input.take 4 = leBytes 4 r.size := by
      have hsm : (sl.input ++ ms).take 4 = sl.input.take 4 := take_append_of_le_length (by omega)
      rw [← hsm, hms, take_left' (length_leBytes 4 r.size)]
    have hrd : readExact (r.size + hashBytes) (sl.input.drop 4) = none := by
      rw [readExact, if_neg]
      rw [length_append, length_leBytes, length_rest] at hlt
      rw [length_drop]
      omega
    rw [readRecord_of_length htk hsh, hrd]

theorem readRecord_nil (h : sl.input = []) : sl.readRecord = .ok (.atEnd, sl) := by
  unfold readRecord
  rw [h]
  rfl

theorem nextRecords_ended (h : sl.ended) (n : Nat) :
    sl.nextRecords n = List.replicate n (.ok .atEnd) := by
  have hnx : sl.nextRecord = (sl, .ok .atEnd) := if_pos h
  induction n with
  | zero => rfl
  | succ n ih => rw [nextRecords, hnx, ih, replicate_succ]

def ExpectsAll (self : CaptureReader) : List CaptureRecord → Prop
  | [] => True
  | r :: records => self.Expects r ∧ ∀ input, ExpectsAll { self with
      input
      nextSequence := self.nextSequence + 1
      lastMonotonicMs := some r.monotonicMs } records

/-- From a beginning of the encodings of records the reader returns the whole ones, and then what the
place of the cut says. -/
theorem nextRecords_of_beginning {rs : List CaptureRecord} (h : sl.ExpectsAll rs)
    (hen : sl.ended = false) (hbg : sl.input <+: rs.flatMap (·.encode)) : ∃ w l t, rs = w ++ l ∧
    sl.input = w.flatMap (·.encode) ++ t ∧
      (∀ next ∈ l.head?, t.length < next.encode.length) ∧ (l = [] → t = []) ∧
      ∀ m, sl.nextRecords (w.length + 1 + m) = w.map (fun r => .ok (.record r)) ++
          .ok (if t = [] then .atEnd else .tornTail) :: List.replicate m (.ok .atEnd) := by
  induction rs generalizing sl with
  | nil =>
    have hnl : sl.input = [] := prefix_nil.1 hbg
    refine ⟨[], [], [], rfl, hnl, nofun, fun _ => rfl, fun m => ?_⟩
    have hnx : sl.nextRecord = ({ sl with ended := true }, .ok .atEnd) := by
      rw [nextRecord, if_neg (by simp [hen]), readRecord_nil hnl]
    rw [length_nil, Nat.add_comm, nextRecords, hnx, nextRecords_ended rfl]
    rfl
  | cons r rs ih =>
    obtain ⟨hr, hrc⟩ := h
    rw [flatMap_cons] at hbg
    by_cases hwh : r.encode.length ≤ sl.input.length
    · -- The record is whole: it is read, and the rest is a beginning of the other encodings.
      obtain ⟨i, hin⟩ := prefix_of_prefix_length_le (prefix_append _ _) hbg hwh
      have hrd := readRecord_encode hr hin.symm
      rw [← hin, prefix_append_right_inj] at hbg
      obtain ⟨w, l, t, heq, htr, hla, hn, hcl⟩ := ih (hrc i) hen hbg
      refine ⟨r :: w, l, t, by rw [heq]; rfl, ?_, hla, hn, fun m => ?_⟩
      · rw [← hin, flatMap_cons, append_assoc, ← htr]
      · have hnx : sl.nextRecord = ({ sl with
            input := i
            nextSequence := sl.nextSequence + 1
            lastMonotonicMs := some r.monotonicMs }, .ok (.record r)) := by
          rw [nextRecord, if_neg (by simp [hen]), hrd]
        rw [length_cons, Nat.add_right_comm _ 1 m, nextRecords, hnx, hcl m]
        rfl
    · -- The cut is before the end of the record.
      have hlt := Nat.lt_of_not_le hwh
      have hpr : sl.input <+: r.encode :=
        prefix_of_prefix_length_le hbg (prefix_append _ _) (Nat.le_of_lt hlt)
      refine ⟨[], r :: rs, sl.input, rfl, rfl, ?_, nofun, fun m => ?_⟩
      · rintro next ⟨⟩
        exact hlt
      · have hnx : sl.nextRecord = ({ sl with ended := true },
            .ok (if sl.input = [] then .atEnd else .tornTail)) := by
          rw [nextRecord, if_neg (by simp [hen])]
          by_cases hnl : sl.input = []
          · rw [readRecord_nil hnl, if_pos hnl]
          · rw [readRecord_torn hr.short hpr hnl hlt, if_neg hnl]
        rw [length_nil, Nat.add_comm, nextRecords, hnx, nextRecords_ended rfl]
        rfl

end CaptureReader

namespace CaptureWriter

variable {sl : CaptureWriter} {cl : Append} {r : CaptureRecord}

/-- The record that a call of `append` hands to the sink. -/
structure Prepared (writer : CaptureWriter) (call : Append) (r : CaptureRecord) : Prop where
  short : r.bytes.length ≤ maxChunkBytes
  bytes : r.bytes = call.bytes
  clock : ∀ previous ∈ writer.lastMonotonicMs, previous ≤ r.monotonicMs
  monotonic : r.monotonicMs = call.monotonicMs
  sequence : r.sequence = writer.sequence
  quota : saturatingAdd writer.bytesWritten (UInt64.ofNat r.encode.length) ≤ writer.maxBytes

theorem prepared (h : sl.prepare cl = .ok r) : sl.Prepared cl r := by
  simp only [prepare, Except.bind_eq_ok, Except.rejectIf_eq_ok, Except.pure_eq_ok] at h
  obtain ⟨-, hv, -, hq, rfl⟩ := h
  obtain ⟨hsh, hcl⟩ := not_or.1 hv
  refine ⟨Nat.le_of_not_lt hsh, rfl, fun p hpr => ?_, rfl, rfl, UInt64.not_lt.1 hq⟩
  rw [mem_def] at hpr
  simpa [hpr] using hcl

/-- The sum of the bytes written and the bytes of a record stays below 2⁶⁴, or the quota is less than
the sum can be at most. -/
def Unsaturated (self : CaptureWriter) (call : Append) : Prop :=
  self.maxBytes.toNat < 2 ^ 64 - 1 ∨
    self.bytesWritten.toNat + encodedRecordBytes call.bytes.length < 2 ^ 64

theorem Prepared.le_maxBytes (h : sl.Prepared cl r) (hsm : sl.Unsaturated cl) :
    sl.bytesWritten.toNat + r.encode.length ≤ sl.maxBytes.toNat := by
  have hq := UInt64.le_iff_toNat_le.1 h.quota
  have hl := r.length_encode
  have hsh := h.short
  rw [h.bytes] at hl hsh
  unfold Unsaturated at hsm
  unfold encodedRecordBytes recordMetadataBytes hashBytes maxChunkBytes at *
  have hv : (UInt64.ofNat r.encode.length).toNat = r.encode.length :=
    UInt64.toNat_ofNat_of_lt' (by rw [UInt64.size]; omega)
  unfold saturatingAdd at hq
  split at hq
  · rw [UInt64.toNat_add] at hq
    omega
  · rw [UInt64.toNat_ofNat_of_lt' (by decide)] at hq
    omega

end CaptureWriter

namespace Recording

open CaptureWriter

/-- A recording that has not ended: the file has just the records that were handed over. -/
structure Running (recording : Recording) : Prop where
  file : recording.writer.sink = captureMagic ++ recording.handed.flatMap (·.encode)
  bytesWritten : recording.writer.bytesWritten.toNat = recording.writer.sink.length
  sequence : recording.writer.sequence.toNat = recording.handed.length
  last : ∀ r ∈ recording.handed, ∃ previous ∈ recording.writer.lastMonotonicMs,
    r.monotonicMs ≤ previous

structure Inv (recording : Recording) : Prop where
  file : recording.writer.sink <+: captureMagic ++ recording.handed.flatMap (·.encode)
  header : captureMagic <+: recording.writer.sink
  bounded : recording.writer.sink.length ≤ recording.writer.maxBytes.toNat
  short : ∀ r ∈ recording.handed, r.bytes.length ≤ maxChunkBytes
  numbered : ∀ (i : Nat) (r : CaptureRecord), recording.handed[i]? = some r → r.sequence.toNat = i
  clocks : recording.handed.Pairwise fun r r' => r.monotonicMs ≤ r'.monotonicMs
  running : recording.writer.failed = false → recording.Running

variable {sl : Recording} {cl : Append} {r : CaptureRecord} {mb : UInt64}
  {wr : CaptureWriter}

theorem inv_new (h : CaptureWriter.new mb = .ok wr) : Inv ⟨wr, []⟩ := by
  simp only [CaptureWriter.new, Except.bind_eq_ok, Except.rejectIf_eq_ok, Except.pure_eq_ok] at h
  obtain ⟨-, hq, rfl⟩ := h
  refine ⟨by simp, prefix_rfl, ?_, by simp, by simp, .nil, fun _ => ?_⟩
  · change captureMagic.length ≤ mb.toNat
    omega
  · exact ⟨by simp, rfl, rfl, by simp⟩

theorem Inv.handed (h : sl.Inv) (hrn : sl.Running) (hr : sl.writer.Prepared cl r)
    (hsm : sl.writer.Unsaturated cl) {next : CaptureWriter} (k : Nat)
    (hsn : next.sink = sl.writer.sink ++ r.encode.take k) (hm : next.maxBytes = sl.writer.maxBytes)
    (hnx : next.failed = false → Running ⟨next, sl.handed ++ [r]⟩) :
    Inv ⟨next, sl.handed ++ [r]⟩ := by
  have hle := hr.le_maxBytes hsm
  rw [hrn.bytesWritten] at hle
  refine ⟨?_, ?_, ?_, ?_, ?_, ?_, hnx⟩
  · rw [hsn, hrn.file, flatMap_append, ← append_assoc]
    simpa using take_prefix _ _
  · rw [hsn]
    exact h.header.trans (prefix_append _ _)
  · have htk := length_take_le' k r.encode
    rw [hsn, hm, length_append]
    omega
  · intro r' hr'
    rcases mem_append.1 hr' with hold | hnew
    · exact h.short r' hold
    · obtain rfl := mem_singleton.1 hnew
      exact hr.short
  · intro i r' hr'
    rw [getElem?_append] at hr'
    split at hr'
    · exact h.numbered i r' hr'
    · next hi =>
      rw [getElem?_singleton] at hr'
      split at hr'
      · obtain rfl := some.inj hr'
        rw [hr.sequence, hrn.sequence]
        omega
      · exact nomatch hr'
  · refine pairwise_append.2 ⟨h.clocks, pairwise_singleton _ _, ?_⟩
    intro r' hr' r'' hr''
    obtain rfl := mem_singleton.1 hr''
    obtain ⟨p, hpr, hle'⟩ := hrn.last r' hr'
    exact UInt64.le_trans hle' (hr.clock p hpr)

theorem length_le_encodings (rs : List CaptureRecord) :
    rs.length ≤ (rs.flatMap (·.encode)).length := by
  induction rs with
  | nil => exact Nat.le_refl 0
  | cons r rs ih =>
    rw [length_cons, flatMap_cons, length_append, r.length_encode]
    unfold encodedRecordBytes hashBytes
    omega

theorem Running.written (h : sl.Running) (hr : sl.writer.Prepared cl r)
    (hsm : sl.writer.Unsaturated cl) : Running ⟨{ sl.writer with
      sink := sl.writer.sink ++ r.encode
      bytesWritten := sl.writer.bytesWritten + UInt64.ofNat r.encode.length
      sequence := sl.writer.sequence + 1
      lastMonotonicMs := some cl.monotonicMs }, sl.handed ++ [r]⟩ := by
  have hle := hr.le_maxBytes hsm
  have hm := sl.writer.maxBytes.toNat_lt
  have hc := length_le_encodings sl.handed
  have hfl := congrArg List.length h.file
  have hmg : captureMagic.length = 8 := rfl
  rw [length_append] at hfl
  refine ⟨?_, ?_, ?_, ?_⟩
  · rw [h.file]
    simp
  · have hb := h.bytesWritten
    rw [UInt64.toNat_add, UInt64.toNat_ofNat_of_lt' (by rw [UInt64.size]; omega), length_append]
    omega
  · have hb := h.bytesWritten
    rw [UInt64.toNat_add, h.sequence, length_append]
    change (sl.handed.length + 1) % 2 ^ 64 = sl.handed.length + 1
    omega
  · intro r' hr'
    refine ⟨cl.monotonicMs, rfl, ?_⟩
    rw [← hr.monotonic]
    rcases mem_append.1 hr' with hold | hnew
    · obtain ⟨p, hpr, hle'⟩ := h.last r' hold
      exact UInt64.le_trans hle' (hr.clock p hpr)
    · obtain rfl := mem_singleton.1 hnew
      exact UInt64.le_refl _

theorem Inv.append (h : sl.Inv) (hsm : sl.writer.Unsaturated cl) : (sl.append cl).Inv := by
  unfold Recording.append CaptureWriter.append handedBy
  by_cases hfl : sl.writer.failed
  · simp only [if_pos hfl, append_nil]
    exact h
  · have hrn := h.running (by simpa using hfl)
    simp only [if_neg hfl]
    cases hpr : sl.writer.prepare cl with
    | error msg =>
      simp only [Except.toOption, toList_none, append_nil]
      exact ⟨h.file, h.header, h.bounded, h.short, h.numbered, h.clocks, by simp⟩
    | ok r =>
      have hr := prepared hpr
      cases hot : cl.outcome with
      | failed k msg => exact h.handed hrn hr hsm k rfl rfl (by simp)
      | written =>
        refine h.handed hrn hr hsm r.encode.length (by rw [take_length]) rfl fun _ => ?_
        exact hrn.written hr hsm

theorem maxBytes_append (s : Recording) (c : Append) :
    (s.append c).writer.maxBytes = s.writer.maxBytes := by
  unfold Recording.append CaptureWriter.append
  split
  · rfl
  · split
    · rfl
    · split <;> rfl

theorem maxBytes_new (h : CaptureWriter.new mb = .ok wr) : wr.maxBytes = mb := by
  simp only [CaptureWriter.new, Except.bind_eq_ok, Except.pure_eq_ok] at h
  obtain ⟨-, -, rfl⟩ := h
  rfl

theorem append_of_failed (h : sl.writer.failed) : sl.append cl = sl := by
  unfold Recording.append CaptureWriter.append handedBy
  rw [if_pos h, if_pos h, append_nil]

theorem failed_of_error {msg : String} (h : (sl.writer.append cl).2 = .error msg) :
    (sl.append cl).writer.failed := by
  unfold Recording.append
  unfold CaptureWriter.append at h ⊢
  split
  · next hfl => exact hfl
  · next hfl =>
    rw [if_neg hfl] at h
    cases hpr : sl.writer.prepare cl with
    | error msg' => rfl
    | ok r =>
      rw [hpr] at h
      cases hot : cl.outcome with
      | failed k msg' => rfl
      | written =>
        rw [hot] at h
        exact nomatch h

theorem expectsAll {rd : CaptureReader} {rs : List CaptureRecord} (hv : rd.version = 2)
    (hen : rd.ended = false) (hnm : ∀ (i : Nat) (r : CaptureRecord), rs[i]? = some r →
      r.sequence = rd.nextSequence + UInt64.ofNat i)
    (hl : ∀ p ∈ rd.lastMonotonicMs, ∀ r ∈ rs, p ≤ r.monotonicMs)
    (hcl : rs.Pairwise fun r r' => r.monotonicMs ≤ r'.monotonicMs)
    (hsh : ∀ r ∈ rs, r.bytes.length ≤ maxChunkBytes) : rd.ExpectsAll rs := by
  induction rs generalizing rd with
  | nil => trivial
  | cons r rs ih =>
    obtain ⟨hf, hcl⟩ := pairwise_cons.1 hcl
    refine ⟨⟨hv, hen, ?_, ?_, hsh r mem_cons_self⟩, fun inp => ?_⟩
    · simpa using hnm 0 r rfl
    · exact fun p hpr => hl p hpr r mem_cons_self
    · refine ih hv hen ?_ ?_ hcl fun r' hr' => hsh r' (mem_cons_of_mem _ hr')
      · intro i r' hr'
        have hsq := hnm (i + 1) r' hr'
        rw [hsq, UInt64.ofNat_add, UInt64.add_comm (UInt64.ofNat i), ← UInt64.add_assoc]
        rfl
      · rintro p ⟨⟩ r' hr'
        exact hf r' hr'

/-- A truncated file is read up to a record that is not complete. -/
theorem Inv.read_truncated (h : sl.Inv) {n : Nat} (hc : 8 ≤ n) :
    ∃ rd w l t, CaptureReader.new (sl.writer.sink.take n) = .ok rd ∧ sl.handed = w ++ l ∧
    sl.writer.sink.take n = captureMagic ++ w.flatMap (·.encode) ++ t ∧
      (∀ next ∈ l.head?, t.length < next.encode.length) ∧ (l = [] → t = []) ∧
      ∀ m, rd.nextRecords (w.length + 1 + m) = w.map (fun r => .ok (.record r)) ++
          .ok (if t = [] then .atEnd else .tornTail) :: List.replicate m (.ok .atEnd) := by
  have hmg : captureMagic.length = 8 := rfl
  have hhd : captureMagic <+: sl.writer.sink.take n := by
    rw [prefix_take_iff]
    exact ⟨h.header, hc⟩
  obtain ⟨input, hin⟩ := hhd
  have hbg : input <+: sl.handed.flatMap (·.encode) := by
    have hfl := ( take_prefix n _).trans h.file
    rwa [← hin, prefix_append_right_inj] at hfl
  generalize hre : ({
    input
    version := 2
    nextSequence := 0
    lastMonotonicMs := none
    ended := false } : CaptureReader) = rd
  have hne : CaptureReader.new (sl.writer.sink.take n) = .ok rd := by
    have hrd : readExact 8 (captureMagic ++ input) = some (captureMagic, input) := by
      rw [readExact, if_pos, take_left' hmg, drop_left' hmg]
      rw [length_append]
      omega
    rw [← hin, CaptureReader.new, ← hre]
    rfl
  have hes : rd.ExpectsAll sl.handed := by
    subst hre
    refine expectsAll rfl rfl ?_ nofun h.clocks h.short
    intro i r hr
    rw [UInt64.zero_add, ← h.numbered i r hr, UInt64.ofNat_toNat]
  subst hre
  obtain ⟨w, l, t, hhn, htr, hnx, hn, hcl⟩ := CaptureReader.nextRecords_of_beginning hes rfl hbg
  refine ⟨_, w, l, t, hne, hhn, ?_, hnx, hn, hcl⟩
  rw [← hin, append_assoc, ← htr]

/-- As long as the sum that is compared with the quota does not saturate: from the file that is cut
anywhere after its header the reader returns the records that are whole, then the end or a torn
tail; the file stays within the quota, nothing is written after a failure, and the records are
numbered from zero with clocks that do not go back. -/
theorem capture_survives_truncation (maxBytes : UInt64) (writer : CaptureWriter) (calls : List Append)
    (hnew : CaptureWriter.new maxBytes = .ok writer) (recording : Recording)
    (hrun : Run.exec step ⟨writer, []⟩ calls = some recording)
    (hcalls : Run.Steps step (fun r call => r.writer.Unsaturated call) ⟨writer, []⟩ calls) :
    (∀ count, 8 ≤ count → ∃ reader whole later torn,
      CaptureReader.new (recording.writer.sink.take count) = .ok reader ∧
      recording.handed = whole ++ later ∧
      recording.writer.sink.take count = captureMagic ++ whole.flatMap (·.encode) ++ torn ∧
      (∀ next ∈ later.head?, torn.length < next.encode.length) ∧ (later = [] → torn = []) ∧
      ∀ more, reader.nextRecords (whole.length + 1 + more) =
        whole.map (fun r => .ok (.record r)) ++
          .ok (if torn = [] then .atEnd else .tornTail) :: List.replicate more (.ok .atEnd)) ∧
    recording.writer.sink.length ≤ maxBytes.toNat ∧
    (∀ call message, (recording.writer.append call).2 = .error message → ∀ later last,
      Run.exec step (recording.append call) later = some last → last = recording.append call) ∧
    (∀ (i : Nat) (r : CaptureRecord), recording.handed[i]? = some r → r.sequence.toNat = i) ∧
    recording.handed.Pairwise fun r r' => r.monotonicMs ≤ r'.monotonicMs := by
  have hin : recording.Inv ∧ recording.writer.maxBytes = maxBytes := by
    refine Run.exec_inv_of_steps (fun r => r.Inv ∧ r.writer.maxBytes = maxBytes) ?_ ?_ hrun hcalls
    · rintro r call r' ⟨⟩ hsm ⟨h, hm⟩
      exact ⟨h.append hsm, (maxBytes_append r call).trans hm⟩
    · exact ⟨inv_new hnew, maxBytes_new hnew⟩
  obtain ⟨h, hm⟩ := hin
  refine ⟨fun count => h.read_truncated, hm ▸ h.bounded, ?_, h.numbered, h.clocks⟩
  intro call message he later last hla
  have hfl := failed_of_error he
  refine Run.exec_inv (fun r => r = recording.append call) ?_ rfl hla
  rintro r call' r' ⟨⟩ rfl
  exact append_of_failed hfl

/-- A record that is written, and one of which the first ten bytes are. -/
theorem capture_survives_truncation_tornSecond :
    ∃ writer recording, CaptureWriter.new 1000 = .ok writer ∧
      Run.exec step ⟨writer, []⟩ [⟨.received, 100, 123, [1, 2], .written⟩,
        ⟨.transmitted, 101, -456, [3], .failed 10 "no space left on device"⟩] = some recording ∧
      recording.writer.sink.length ≤ 1000 ∧
      recording.handed.Pairwise fun r r' => r.monotonicMs ≤ r'.monotonicMs := by
  refine ⟨_, _, rfl, rfl, ?_⟩
  obtain ⟨-, hbd, -, -, hcl⟩ := capture_survives_truncation 1000 _
    [⟨.received, 100, 123, [1, 2], .written⟩,
      ⟨.transmitted, 101, -456, [3], .failed 10 "no space left on device"⟩] rfl _ rfl
    ⟨.inl (by decide), .inl (by rw [maxBytes_append]; decide), trivial⟩
  exact ⟨hbd, hcl⟩

/-- With a quota of 2⁶⁴ - 1 bytes the quota is never found to be reached. -/
theorem append_unlimited (hfl : sl.writer.failed = false)
    (hm : sl.writer.maxBytes = UInt64.ofNat (2 ^ 64 - 1))
    (hl : ∀ p ∈ sl.writer.lastMonotonicMs, p = 0) :
    (sl.append ⟨.received, 0, 0, [], .written⟩).writer.failed = false ∧
      (sl.append ⟨.received, 0, 0, [], .written⟩).writer.lastMonotonicMs = some 0 ∧
      (sl.append ⟨.received, 0, 0, [], .written⟩).writer.sink.length =
        sl.writer.sink.length + 61 := by
  have hcl : ¬sl.writer.lastMonotonicMs.any (0 < ·) := by
    cases h : sl.writer.lastMonotonicMs with
    | none => simp
    | some p => simp [hl p h]
  have hq : ∀ n : UInt64, ¬n > sl.writer.maxBytes := by
    intro n
    rw [gt_iff_lt, UInt64.lt_iff_toNat_lt, hm, UInt64.toNat_ofNat_of_lt' (by decide)]
    have hn := n.toNat_lt
    omega
  have hpr : sl.writer.prepare ⟨.received, 0, 0, [], .written⟩ =
      .ok ⟨sl.writer.sequence, .received, 0, 0, []⟩ := by
    simp only [prepare, Except.bind_eq_ok, Except.rejectIf_eq_ok, Except.pure_eq_ok]
    exact ⟨(), not_or.2 ⟨by decide, hcl⟩, (), hq _, trivial⟩
  unfold Recording.append CaptureWriter.append
  simp only [hfl, hpr, Bool.false_eq_true, if_false]
  exact ⟨trivial, trivial, by rw [length_append]; rfl⟩

theorem exec_unlimited (s : Recording) (n : Nat) (hfl : s.writer.failed = false)
    (hm : s.writer.maxBytes = UInt64.ofNat (2 ^ 64 - 1))
    (hl : ∀ p ∈ s.writer.lastMonotonicMs, p = 0) :
    ∃ recording, Run.exec step s (List.replicate n ⟨.received, 0, 0, [], .written⟩) =
        some recording ∧ recording.writer.sink.length = s.writer.sink.length + 61 * n := by
  induction n generalizing s with
  | zero => exact ⟨s, rfl, rfl⟩
  | succ n ih =>
    obtain ⟨hfl', hl', hln⟩ := append_unlimited hfl hm hl
    obtain ⟨recording, hr, hsn⟩ := ih _ hfl' ((maxBytes_append s _).trans hm)
      (by rw [hl']; rintro p ⟨⟩; rfl)
    refine ⟨recording, ?_, by omega⟩
    exact Run.exec_cons_eq_some.2 ⟨_, rfl, hr⟩

/-- The quota of 2⁶⁴ - 1 bytes is exceeded: the sum that is compared with it saturates. -/
theorem quota_exceeded : ∃ writer calls recording,
    CaptureWriter.new (UInt64.ofNat (2 ^ 64 - 1)) = .ok writer ∧
      Run.exec step ⟨writer, []⟩ calls = some recording ∧
      recording.writer.sink.length > (UInt64.ofNat (2 ^ 64 - 1)).toNat := by
  obtain ⟨writer, hnew⟩ : ∃ writer, CaptureWriter.new (.ofNat (2 ^ 64 - 1)) = .ok writer := ⟨_, rfl⟩
  obtain ⟨hfl, hl⟩ : writer.failed = false ∧ writer.lastMonotonicMs = none := by
    obtain ⟨-, -, rfl⟩ := hnew
    exact ⟨rfl, rfl⟩
  obtain ⟨recording, hr, hln⟩ := exec_unlimited ⟨writer, []⟩ (2 ^ 64) hfl
    (maxBytes_new hnew) (by simp [hl])
  refine ⟨_, _, recording, hnew, hr, ?_⟩
  rw [UInt64.toNat_ofNat_of_lt' (by decide)]
  omega

end Recording

end Aerobag.Receiver
