import Aerobag.Receiver.Protocol

/-!
# Frames that are received once

A receiver remembers the last 64 frames that it has accepted. As frames are numbered consecutively modulo
256, the number after the last one is not among theirs.
-/

open List

namespace Aerobag.Receiver

namespace ReceiveSequence

def acceptAll : ReceiveSequence → List Frame → List (Except Fault Bool)
  | _, [] => []
  | self, frame :: frames =>
    match self.accept frame with
    | .ok (isNew, next) => .ok isNew :: acceptAll next frames
    | .error fault => .error fault :: acceptAll self frames

end ReceiveSequence

variable {ac : List Frame} {frame : Frame} {r : ReceiveSequence}

/-- The frame has the next number. -/
def Follows (accepted : List Frame) (frame : Frame) : Prop :=
  ∀ newest ∈ accepted.head?, frame.sequence = newest.sequence + 1

/-- The frame is one of the last that were accepted. -/
def Retransmits (accepted : List Frame) (frame : Frame) : Prop :=
  ∃ earlier ∈ accepted.take 64, earlier.sequence = frame.sequence ∧ earlier.payload = frame.payload

/-- What arrives after the frames that have been accepted, the newest first, and what each frame is: a new
one, a retransmission, or neither. -/
inductive Arrives : List Frame → List (Frame × Option Bool) → Prop
  | done {accepted : List Frame} : Arrives accepted []
  | original {accepted : List Frame} {frame : Frame} {rest : List (Frame × Option Bool)}
      (hnext : Follows accepted frame) (hrest : Arrives (frame :: accepted) rest) :
      Arrives accepted ((frame, some true) :: rest)
  | again {accepted : List Frame} {frame : Frame} {rest : List (Frame × Option Bool)}
      (hframe : Retransmits accepted frame) (hrest : Arrives accepted rest) :
      Arrives accepted ((frame, some false) :: rest)
  | stray {accepted : List Frame} {frame : Frame} {rest : List (Frame × Option Bool)}
      (hnext : ¬ Follows accepted frame) (hframe : ¬ Retransmits accepted frame)
      (hdigest : ∀ earlier ∈ accepted.take 64,
        Sha256.digest earlier.payload = Sha256.digest frame.payload → earlier.payload = frame.payload)
      (hrest : Arrives accepted rest) : Arrives accepted ((frame, none) :: rest)

/-- The numbers descend by one, and the receiver knows the newest frames. -/
structure Remembers (r : ReceiveSequence) (accepted : List Frame) : Prop where
  numbered : accepted.IsChain fun newer older => newer.sequence = older.sequence + 1
  last : r.last = accepted.head?.map (·.sequence)
  recent : r.recent =
    ((accepted.take 64).map fun frame => (frame.sequence, Sha256.digest frame.payload)).reverse

variable {a : List Frame}

theorem sequence_of_numbered {n : Frame}
    (h : (n :: a).IsChain fun nw o => nw.sequence = o.sequence + 1) {i : Nat}
    (hfr : (n :: a)[i]? = some frame) : n.sequence = frame.sequence + UInt8.ofNat i := by
  induction i generalizing n a with
  | zero =>
    obtain rfl := Option.some.inj hfr
    simp
  | succ i ih =>
    cases a with
    | nil => simp at hfr
    | cons o a =>
      rw [isChain_cons_cons] at h
      rw [h.1, ih h.2 hfr, UInt8.add_assoc]
      simp

theorem window_eq {α : Type} {n : Nat} {xs : List α} (h : xs.length ≤ n + 1) :
    (if xs.length > n then xs.reverse.drop 1 else xs.reverse) = (xs.take n).reverse := by
  split
  · rw [drop_one, tail_reverse, dropLast_eq_take, show xs.length - 1 = n by omega]
  · rw [take_of_length_le (by omega)]

namespace Remembers

theorem mem_recent (h : Remembers r ac) :
    (frame.sequence, Sha256.digest frame.payload) ∈ r.recent ↔ ∃ er ∈ ac.take 64,
      er.sequence = frame.sequence ∧ Sha256.digest er.payload = Sha256.digest frame.payload := by
  rw [h.recent, mem_reverse, mem_map]
  simp [Prod.mk.injEq]

theorem notMem_recent (h : Remembers r a) (hnx : Follows a frame) :
    (frame.sequence, Sha256.digest frame.payload) ∉ r.recent := by
  rw [h.mem_recent]
  rintro ⟨er, hm, hsq, -⟩
  cases a with
  | nil => simp at hm
  | cons n a =>
    obtain ⟨i, hlt, rfl⟩ := mem_take_iff_getElem.1 hm
    obtain ⟨hlt, hi⟩ := lt_min_iff.1 hlt
    have hn := congrArg UInt8.toNat (sequence_of_numbered h.numbered (getElem?_eq_getElem hi))
    have hf := congrArg UInt8.toNat (hsq.trans (hnx n rfl))
    simp only [UInt8.toNat_add, UInt8.toNat_ofNat', UInt8.toNat_one] at hn hf
    omega

theorem last_any (h : Remembers r ac) :
    r.last.any (fun l => frame.sequence ≠ l + 1) = true ↔ ¬ Follows ac frame := by
  rw [h.last]
  cases ac <;> simp [Follows]

theorem original {f : Frame} (h : Remembers r a) (hnx : Follows a f) :
    ∃ next, r.accept f = .ok (true, next) ∧ Remembers next (f :: a) := by
  rw [ReceiveSequence.accept]
  simp only [if_neg (h.notMem_recent hnx), if_neg (mt h.last_any.1 (not_not.2 hnx))]
  refine ⟨_, rfl, ?_, rfl, ?_⟩
  · cases a with
    | nil => simp
    | cons n a => exact isChain_cons_cons.2 ⟨hnx n rfl, h.numbered⟩
  · simp only [h.recent, ← reverse_cons, length_reverse]
    rw [window_eq (by simp)]
    simp [← map_take, take_take]

theorem answers (h : Remembers r ac) {ars : List (Frame × Option Bool)} (ha : Arrives ac ars) :
    (r.acceptAll (ars.map Prod.fst)).map Except.toOption = ars.map Prod.snd := by
  induction ha generalizing r with
  | done => rfl
  | original hnx _ ih =>
    obtain ⟨next, hac, hn⟩ := h.original hnx
    simp [ReceiveSequence.acceptAll, hac, ih hn, Except.toOption]
  | again hfr _ ih =>
    obtain ⟨er, hm, hsq, hpl⟩ := hfr
    have hin := h.mem_recent.2 ⟨er, hm, hsq, congrArg _ hpl⟩
    simp [ReceiveSequence.acceptAll, ReceiveSequence.accept, hin, ih h, Except.toOption]
  | stray hnx hfr hdg _ ih =>
    have hin := mt h.mem_recent.1 (by
      rintro ⟨er, hm, hsq, hd⟩
      exact hfr ⟨er, hm, hsq, hdg er hm hd⟩)
    rw [map_cons, ReceiveSequence.acceptAll, ReceiveSequence.accept]
    simp only [if_neg hin, if_pos (h.last_any.2 hnx), map_cons, ih h, Except.toOption]

end Remembers

/-- Of frames that are numbered consecutively and of their retransmissions, the new ones are
accepted once and in order, and the others are dropped. A frame that is neither is refused and
changes nothing for those after it. -/
theorem transport_exactly_once {arrivals : List (Frame × Option Bool)} (h : Arrives [] arrivals) :
    (ReceiveSequence.new.acceptAll (arrivals.map Prod.fst)).map Except.toOption =
      arrivals.map Prod.snd :=
  Remembers.answers ⟨.nil, rfl, rfl⟩ h

/-- The number wraps around, the first frame comes again, and then one after a gap. -/
theorem transport_exactly_once_wrapped :
    (ReceiveSequence.new.acceptAll [⟨2, 255, 0, [1]⟩, ⟨2, 0, 0, [1]⟩, ⟨2, 255, 0, [1]⟩, ⟨2, 7, 0, [1]⟩,
      ⟨2, 1, 0, [3]⟩]).map Except.toOption = [some true, some true, some false, none, some true] := by
  refine @transport_exactly_once [(_, _), (_, _), (_, _), (_, _), (_, _)] ?_
  refine .original (by simp [Follows]) (.original (by simp [Follows]) (.again ?_ (.stray ?_ ?_ ?_
    (.original (by simp [Follows]) .done))))
  · exact ⟨_, by simp, rfl, rfl⟩
  · simp [Follows]
  · simp [Retransmits]
  · simp

end Aerobag.Receiver
