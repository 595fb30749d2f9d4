import Aerobag.Receiver.Framing

/-!
# Exactness of the transport framing

The frames that a `Framer` returns do not depend on how the bytes are cut into chunks, and from the
encodings of frames it returns these frames.
-/

open List Except

namespace Aerobag.Receiver

open Chunked

theorem checksum_concat (bs : Bytes) (b : UInt8) : checksum (bs ++ [b]) = checksum bs - b := by
  rw [checksum, foldl_append]
  rfl

theorem checksum_self (bs : Bytes) : checksum (bs ++ [checksum bs]) = 0 := by
  rw [checksum_concat]
  exact UInt8.sub_self _

namespace Frame

variable {fr : Frame} {bytes : Bytes}

def fields (frame : Frame) : Bytes :=
  [0xc0, 1] ++ leBytes 2 frame.encodedLength ++ [frame.kind, frame.sequence, frame.acknowledgement]

def body (frame : Frame) : Bytes :=
  frame.payload ++ if frame.payload.isEmpty then [] else [checksum frame.payload]

theorem encode_eq_ok : fr.encode = .ok bytes ↔ fr.encodedLength ≤ maxFrameBytes ∧
      bytes = fr.fields ++ [checksum fr.fields] ++ fr.body := by
  simp only [encode, bind_eq_ok, rejectIf_eq_ok, pure_eq_ok, exists_const]
  rw [Nat.not_lt, fields, body, ← append_assoc, eq_comm (b := bytes)]

theorem length_fields (f : Frame) : (f.fields ++ [checksum f.fields]).length = 8 := by simp [fields]

theorem length_body (f : Frame) : 8 + f.body.length = f.encodedLength := by
  unfold body encodedLength
  split <;> simp [Nat.add_assoc]

theorem checksum_body : checksum fr.body = 0 := by
  unfold body
  split
  · next h =>
    rw [List.isEmpty_iff.1 h]
    rfl
  · exact checksum_self _

theorem encodedLength_valid : ¬(fr.encodedLength < 8 ∨ fr.encodedLength = 9) := by
  unfold encodedLength
  split
  · next h =>
    rw [List.isEmpty_iff.1 h]
    decide
  · next h =>
    have hp := length_pos_iff.2 fun hnl => h (List.isEmpty_iff.2 hnl)
    omega

theorem transportLength_fields (m : Bytes) (h : fr.encodedLength ≤ maxFrameBytes) :
    transportLength (fr.fields ++ [checksum fr.fields] ++ m) = .ok fr.encodedLength := by
  have hbt : between (fr.fields ++ [checksum fr.fields]) 2 4 = leBytes 2 fr.encodedLength := by
    simp [between, fields]
  have hv : leNat (leBytes 2 fr.encodedLength) = fr.encodedLength := by
    refine leNat_leBytes ?_
    unfold maxFrameBytes at h
    omega
  have hl := length_fields fr
  have hmg : (fr.fields ++ [checksum fr.fields]).take 2 = [0xc0, 1] := rfl
  have hsm : checksum ((fr.fields ++ [checksum fr.fields]).take 8) = 0 := by
    rw [take_of_length_le (by omega), checksum_self]
  have hap := transportFormat.length_append m (Nat.le_of_eq hl.symm)
  refine hap.trans ?_
  simp only [transportFormat, transportLength, bind_eq_ok, rejectIf_eq_ok,
    pure_eq_ok, exists_const, hmg, hsm, hbt, hv]
  exact ⟨by simp, encodedLength_valid, trivial⟩

theorem complete_of_encode (h : fr.encode = .ok bytes) : transportFormat.Complete bytes := by
  obtain ⟨hle, rfl⟩ := encode_eq_ok.1 h
  refine (transportLength_fields fr.body hle).trans ?_
  rw [length_append, length_fields, length_body]

theorem takeFrame_of_encode (h : fr.encode = .ok bytes) : takeFrame () bytes = .ok ((), [fr]) := by
  obtain ⟨-, rfl⟩ := encode_eq_ok.1 h
  have hl := length_fields fr
  have hdr : (fr.fields ++ [checksum fr.fields] ++ fr.body).drop 8 = fr.body := by
    rw [drop_left' hl]
  have hpy : (if (fr.fields ++ [checksum fr.fields] ++ fr.body).length = 8 then []
      else between (fr.fields ++ [checksum fr.fields] ++ fr.body) 8
        ((fr.fields ++ [checksum fr.fields] ++ fr.body).length - 1)) = fr.payload := by
    rw [length_append, hl, between, hdr]
    unfold body
    by_cases hem : fr.payload = []
    · simp [hem]
    · simp [hem]
  simp only [takeFrame, bind_eq_ok, rejectIf_eq_ok, exists_const, hdr, hpy, checksum_body]
  exact ⟨by simp, rfl⟩

end Frame

theorem finishAll_of_encode {fs : List Frame} {es : List Bytes}
    (h : fs.mapM Frame.encode = .ok es) (out : List Frame) :
    (∀ e ∈ es, transportFormat.Complete e) ∧
      Format.finishAll takeFrame () es out = .ok ((), out ++ fs) := by
  induction fs generalizing es out with
  | nil =>
    obtain rfl : [] = es := Except.ok.inj h
    simp [Format.finishAll]
  | cons f fs ih =>
    rw [mapM_cons] at h
    simp only [bind_eq_ok, pure_eq_ok] at h
    obtain ⟨e, hen, es, hes, rfl⟩ := h
    obtain ⟨hcm, hfn⟩ := ih hes (out ++ [f])
    refine ⟨forall_mem_cons.2 ⟨Frame.complete_of_encode hen, hcm⟩, ?_⟩
    rw [Format.finishAll, Frame.takeFrame_of_encode hen]
    simpa using hfn

theorem transportLength_le {buf : Bytes} {n : Nat} (h : transportLength buf = .ok n) :
    n ≤ maxFrameBytes := by
  simp only [transportLength, bind_eq_ok, pure_eq_ok] at h
  have hlt := leNat_lt (between buf 2 4)
  have hl : (between buf 2 4).length ≤ 2 := by exact length_take_le _ _
  have hp := Nat.pow_le_pow_right (by decide : 0 < 256) hl
  unfold maxFrameBytes
  omega

theorem target_le {buf : transportFormat.Buffer} {n : Nat}
    (h : transportFormat.target buf.bytes = .ok n) : n ≤ maxFrameBytes := by
  unfold Format.target at h
  split at h
  · obtain rfl := Except.ok.inj h
    decide
  · exact transportLength_le h

namespace Framer

theorem feedAll_encodings {fs : List Frame} {next : Frame} {es : List Bytes}
    {e rs : Bytes} {chs : List Bytes} (hfr : fs.mapM Frame.encode = .ok es)
    (hnx : next.encode = .ok e) (hr : rs <+: e) (hpr : rs ≠ e)
    (hch : framer.Cuts (es.flatten ++ rs) chs) :
    ∃ os : List (List Frame), (framer.feedAll new chs).2 = os.map .ok ∧
      os.flatten = fs ∧ (framer.feedAll new chs).1.buffer.bytes = rs := by
  obtain ⟨m, rfl⟩ := hr
  have hmr : m ≠ [] := by
    rintro rfl
    simp at hpr
  obtain ⟨hcm, hfn⟩ := finishAll_of_encode hfr []
  have hin := (Frame.complete_of_encode hnx).incomplete_of_append hmr
  have hps : framer.format.pushAll framer.finish framer.format.empty framer.initial
      (es.flatten ++ rs) [] = _ := Format.pushAll_flatten hcm hin
  rw [show Format.finishAll framer.finish framer.initial es [] = _ from hfn] at hps
  have hrn := Decoder.feedAll_eq (D := framer) (d := new) rfl hch.bounded
  rw [hch.flatten, show framer.format.pushAll framer.finish new.buffer new.state _ [] = _ from hps]
    at hrn
  obtain ⟨os, hal, hfl⟩ := hrn
  exact ⟨os, congrArg Prod.snd hal, hfl, congrArg (fun r => r.1.buffer.bytes) hal⟩

theorem length_buffer_lt (s : Framer) : s.buffer.bytes.length < maxFrameBytes := by
  obtain hlt | ⟨n, hn, hlt⟩ := s.buffer.incomplete
  · exact hlt.trans (by decide)
  · exact Nat.lt_of_lt_of_le hlt (transportLength_le hn)

/-- From the encodings of frames and a part of one more the frames come back; two ways of cutting
the same bytes give an error with both, or the same frames and the same buffer; and the buffer never
holds more than one frame. -/
theorem framing_exact :
    (∀ (frames : List Frame) (next : Frame) (encodings : List Bytes) (encoding rest : Bytes)
      (chunks : List Bytes), frames.mapM Frame.encode = .ok encodings →
      next.encode = .ok encoding → rest <+: encoding → rest ≠ encoding →
      framer.Cuts (encodings.flatten ++ rest) chunks →
      ∃ outs : List (List Frame), (framer.feedAll new chunks).2 = outs.map .ok ∧
        outs.flatten = frames ∧ (framer.feedAll new chunks).1.buffer.bytes = rest) ∧
    (∀ (bytes : Bytes) (chunks chunks' : List Bytes), framer.Cuts bytes chunks →
      framer.Cuts bytes chunks' →
      (∃ fault, .error fault ∈ (framer.feedAll new chunks).2 ∧
        .error fault ∈ (framer.feedAll new chunks').2) ∨
      ∃ outs outs' : List (List Frame), (framer.feedAll new chunks).2 = outs.map .ok ∧
        (framer.feedAll new chunks').2 = outs'.map .ok ∧ outs.flatten = outs'.flatten ∧
        (framer.feedAll new chunks).1 = (framer.feedAll new chunks').1) ∧
    (∀ self : Framer, transportFormat.Incomplete self.buffer.bytes ∧
      self.buffer.bytes.length < maxFrameBytes) ∧
    ∀ (buffer : transportFormat.Buffer) (bytes : Bytes) (target : Nat),
      transportFormat.target buffer.bytes = .ok target →
      (transportFormat.fill buffer target bytes).1.length ≤ target ∧ target ≤ maxFrameBytes := by
  refine ⟨?_, ?_, ?_, ?_⟩
  · intro frames next encodings encoding rest chunks hfr hnx hr hpr hch
    exact feedAll_encodings hfr hnx hr hpr hch
  · intro bytes chunks chunks' hch hch'
    exact Decoder.feedAll_cuts rfl hch hch'
  · intro self
    exact ⟨self.buffer.incomplete, self.length_buffer_lt⟩
  · intro buffer bytes target ht
    exact ⟨Format.length_fill_le ht, target_le ht⟩

/-- Two frames and the first byte of a third one, cut in the middle of the first header. -/
theorem framing_exact_splitHeader :
    ∃ outs : List (List Frame),
      (framer.feedAll new [[192, 1, 12, 0, 2],
        [255, 1, 49, 1, 2, 3, 250, 192, 1, 8, 0, 2, 0, 2, 51, 192]]).2 = outs.map .ok ∧
      outs.flatten = [⟨2, 255, 1, [1, 2, 3]⟩, ⟨2, 0, 2, []⟩] ∧
      (framer.feedAll new [[192, 1, 12, 0, 2],
        [255, 1, 49, 1, 2, 3, 250, 192, 1, 8, 0, 2, 0, 2, 51, 192]]).1.buffer.bytes = [192] := by
  refine framing_exact.1 _ ⟨2, 0, 2, []⟩ [[192, 1, 12, 0, 2, 255, 1, 49, 1, 2, 3, 250],
    [192, 1, 8, 0, 2, 0, 2, 51]] [192, 1, 8, 0, 2, 0, 2, 51] _ _ ?_ ?_ ?_ ?_ ⟨?_, ?_⟩
  all_goals decide +kernel

end Framer

end Aerobag.Receiver
