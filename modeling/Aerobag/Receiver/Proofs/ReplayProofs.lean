import Aerobag.Receiver.Proofs.FramingProofs
import Aerobag.Receiver.Proofs.ReassemblyProofs
import Aerobag.Receiver.Proofs.SequenceProofs
import Aerobag.Receiver.Replay

/-!
# What is received is emitted once

Framing, the filter of retransmissions and reassembly in a row.
-/

open List Except

namespace Aerobag.Receiver

/-- The payloads of the frames that are not retransmissions. -/
def payloads (arrivals : List (Frame × Option Bool)) : List Bytes :=
  (arrivals.filter (·.2 = some true)).map (·.1.payload)

/-- The frames of a connection as they are sent: those that arrive as `arrivals` says, and
acknowledgements between them. -/
structure Sent (arrivals : List (Frame × Option Bool)) (wire : List Frame) : Prop where
  numbered : Arrives [] arrivals
  taken : ∀ arrival ∈ arrivals, arrival.2 ≠ none
  frames : wire.filter (!·.payload.isEmpty) = arrivals.map Prod.fst
  kind : ∀ frame ∈ wire, frame.kind = 2

variable {i : Inbound} {ac ws : List Frame} {ars : List (Frame × Option Bool)}

theorem Inbound.frames_of_arrives (hrm : Remembers i.sequence ac) (har : Arrives ac ars)
    (htk : ∀ a ∈ ars, a.2 ≠ none) (hws : ws.filter (!·.payload.isEmpty) = ars.map Prod.fst)
    (hkd : ∀ f ∈ ws, f.kind = 2) {os : List (List ApplicationRecord)}
    (hos : (applicationDecoder.feedAll i.application (payloads ars)).2 = os.map .ok) :
    ∃ i', ws.foldlM Inbound.frame i = .ok i' ∧
      i'.emitted = i.emitted ++ os.flatten.filter (·.isMessage) := by
  induction ws generalizing i ac ars os with
  | nil =>
    obtain rfl : ars = [] := map_eq_nil_iff.1 hws.symm
    obtain rfl : os = [] := map_eq_nil_iff.1 hos.symm
    exact ⟨i, rfl, by simp⟩
  | cons f ws ih =>
    obtain ⟨hf, hkd⟩ := forall_mem_cons.1 hkd
    rw [foldlM_cons]
    by_cases hem : f.payload.isEmpty
    · rw [filter_cons_of_neg (by simp [hem])] at hws
      have hfr : i.frame f = .ok i := by simp [frame, hf, hem]
      rw [hfr]
      exact ih hrm har htk hws hkd hos
    · rw [filter_cons_of_pos (by simp [hem])] at hws
      cases har with
      | done => simp at hws
      | original hnx har =>
        obtain ⟨rfl, hw⟩ := cons.inj hws
        obtain ⟨next, hac, hn⟩ := hrm.original hnx
        -- Its payload is the next chunk of the application stream.
        obtain ⟨o, os, rfl, ho, hos⟩ := map_eq_cons_iff.1 hos.symm
        obtain ⟨ap, hfd⟩ : ∃ ap, applicationDecoder.feed i.application f.payload = (ap, .ok o) :=
          ⟨_, Prod.ext rfl ho.symm⟩
        rw [show applicationDecoder.feed i.application _ = _ from hfd] at hos
        have hfr : i.frame f = .ok ⟨next, ap, i.emitted ++ o.filter (·.isMessage)⟩ := by
          simp [frame, hf, hem, hac, ApplicationStream.feed, hfd]
        obtain ⟨i', hi', he⟩ := ih (i := ⟨next, ap, _⟩) hn har (forall_mem_cons.1 htk).2 hw hkd hos.symm
        exact ⟨i', by rw [hfr, ok_bind, hi'], by simp [he]⟩
      | again hre har =>
        obtain ⟨rfl, hw⟩ := cons.inj hws
        obtain ⟨er, hm, hsq, hpl⟩ := hre
        have hin := hrm.mem_recent.2 ⟨er, hm, hsq, congrArg _ hpl⟩
        have hfr : i.frame f = .ok i := by simp [frame, hf, hem, ReceiveSequence.accept, hin]
        rw [hfr]
        exact ih hrm har (forall_mem_cons.1 htk).2 hw hkd hos
      | stray => exact absurd rfl (forall_mem_cons.1 htk).1

theorem foldlM_received {fr : Framer} {i' : Inbound} {chs : List Bytes} {os : List (List Frame)}
    (hos : (framer.feedAll fr chs).2 = os.map .ok) (h : os.flatten.foldlM Inbound.frame i = .ok i') :
    ∃ fr', chs.foldlM Stream.received ⟨fr, i⟩ = .ok ⟨fr', i'⟩ := by
  induction chs generalizing fr i os with
  | nil =>
    obtain rfl : os = [] := map_eq_nil_iff.1 hos.symm
    exact ⟨fr, by cases h; rfl⟩
  | cons c chs ih =>
    obtain ⟨o, os, rfl, ho, hos⟩ := map_eq_cons_iff.1 hos.symm
    rw [flatten_cons, foldlM_append, bind_eq_ok] at h
    obtain ⟨t, ht, h⟩ := h
    obtain ⟨fr', hr⟩ := ih hos.symm h
    have hfd : fr.feed c = (_, .ok o) := Prod.ext rfl ho.symm
    refine ⟨fr', ?_⟩
    rw [foldlM_cons, Stream.received, hfd]
    simp only [ht]
    exact hr

/-- However the records of a connection are cut into frames, and the frames into what is received at
a time, each message is emitted once, in the order of their ends, whatever is sent again or acknowledged
between them. -/
theorem messages_emitted_once {records : List WireRecord} {arrivals : List (Frame × Option Bool)}
    {wire : List Frame} {encodings chunks : List Bytes} (hadmitted : Admitted [] records)
    (hsent : Sent arrivals wire)
    (hpayloads : (payloads arrivals).flatten = records.flatMap (·.encode))
    (hencode : wire.mapM Frame.encode = .ok encodings)
    (hcuts : framer.Cuts encodings.flatten chunks) :
    ∃ s, chunks.foldlM Stream.received .new = .ok s ∧
      s.inbound.emitted = (deliveredAll [] records).filter (·.isMessage) := by
  have hap : applicationDecoder.Cuts (records.flatMap (·.encode)) (payloads arrivals) := by
    refine ⟨hpayloads, fun p hp => ?_⟩
    obtain ⟨a, ha, rfl⟩ := mem_map.1 hp
    have hw : a.1 ∈ wire.filter _ := hsent.frames ▸ mem_map_of_mem (mem_of_mem_filter ha)
    have hen := ((mapM_eq_ok_iff fun _ _ h => (Frame.encode_eq_ok.1 h).2).1 hencode).2 _
      (mem_of_mem_filter hw)
    have hle := (Frame.encode_eq_ok.1 hen).1
    simp only [Frame.encodedLength, maxFrameBytes] at hle
    change _ ≤ 32 * 1024 * 1024
    omega
  obtain ⟨os, hos, hdl⟩ := (ApplicationStream.feedAll_records hap).1 hadmitted
  -- Nothing is left of a further frame.
  have hnx : Frame.encode ⟨2, 0, 0, []⟩ = .ok _ := rfl
  obtain ⟨fs, hfs, hfl, -⟩ := Framer.feedAll_encodings hencode hnx nil_prefix (by decide)
    (by rwa [append_nil])
  have hrm : Remembers ReceiveSequence.new [] := ⟨.nil, rfl, rfl⟩
  obtain ⟨i, hi, hem⟩ := Inbound.frames_of_arrives (i := ⟨.new, .new, []⟩) hrm hsent.numbered
    hsent.taken hsent.frames hsent.kind hos
  rw [← hfl] at hi
  obtain ⟨fr, hr⟩ := foldlM_received hfs hi
  exact ⟨_, hr, by rw [hem, hdl]; rfl⟩

/-- A message in two frames, the first of which is sent again. -/
def resent : List (Frame × Option Bool) :=
  [(⟨2, 255, 0, [1, 9, 0, 12]⟩, some true), (⟨2, 255, 0, [1, 9, 0, 12]⟩, some false),
    (⟨2, 0, 0, [7, 0, 0, 0, 42]⟩, some true)]

/-- The message is emitted once. -/
theorem messages_emitted_once_resent : ∃ es, (resent.map Prod.fst).mapM Frame.encode = .ok es ∧
    ∃ s, [es.flatten].foldlM Stream.received .new = .ok s ∧
      s.inbound.emitted = [.message 7 0 [42]] := by
  have hsn : Sent resent (resent.map Prod.fst) := by
    refine ⟨.original (by simp [Follows]) (.again ⟨_, mem_cons_self, rfl, rfl⟩ ?_), by decide, rfl,
      by decide⟩
    exact .original (by simp [Follows]) .done
  have had : Admitted [] [⟨12, 7, [42], by decide⟩] := by decide
  exact ⟨_, rfl, messages_emitted_once had hsn rfl rfl ⟨append_nil _, by decide⟩⟩

end Aerobag.Receiver
