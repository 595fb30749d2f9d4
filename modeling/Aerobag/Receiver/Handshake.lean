import Aerobag.Receiver.Protocol
import Mathlib.Logic.Relation

/-!
# The handshake

What a connection does, without framing, clocks and retransmission: its phases, the window of the
frames that are not acknowledged, and the history. Every part of a call is a sequence of these steps.
-/

open List

namespace Aerobag.Receiver

namespace ProtocolPhase

/-- The phases in the order in which a connection goes through them. -/
def rank : ProtocolPhase → Nat
  | negotiating => 0
  | capabilities => 1
  | challenge => 2
  | verifyResponse => 3
  | product => 4
  | receiving => 5
  | failed => 6

theorem rank_le_failed (ph : ProtocolPhase) : ph.rank ≤ failed.rank := by cases ph <;> decide

end ProtocolPhase

structure Handshake (P : Type) where
  phase : ProtocolPhase
  nonce : Bytes
  /-- The sequence numbers of the frames that are not acknowledged. -/
  window : List UInt8
  next : UInt8
  history : List (Event P)
  messages : List (ReceivedMessage P)

def challengeDigest (challenge : Bytes) : Bytes := Md5.digest (challengeSeed ++ challenge)

namespace Handshake

variable {P : Type}

inductive Step : Handshake P → Handshake P → Prop
  | acknowledge (h : Handshake P) (count : Nat) : Step h { h with window := h.window.drop count }
  | send (h : Handshake P) : h.window.length ≠ maxPending →
    Step h { h with window := h.window ++ [h.next], next := h.next + 1 }
  | negotiate (h : Handshake P) : h.phase = .negotiating → Step h { h with phase := .capabilities }
  | request (h : Handshake P) : h.phase = .capabilities → Step h { h with phase := .challenge }
  | handle (h : Handshake P) (record : ApplicationRecord) :
    Step h { h with history := h.history ++ [.handled h.phase record] }
  | answer (h : Handshake P) (challenge : Bytes) : h.phase = .challenge → challenge.length = 16 →
    .handled .challenge (.message 2 0 challenge) ∈ h.history →
    Step h { h with phase := .verifyResponse }
  | verify (h : Handshake P) : h.phase = .verifyResponse →
    .handled .verifyResponse (.message 4 0 (challengeDigest h.nonce)) ∈ h.history →
    Step h { h with phase := .product }
  | subscribe (h : Handshake P) : h.phase = .product → Step h { h with phase := .receiving }
  | deliver (h : Handshake P) (message : ReceivedMessage P) : h.phase = .receiving →
    Step h { h with
      history := h.history ++ [.delivered message]
      messages := h.messages ++ [message] }

/-- The `count` sequence numbers before the next one. -/
def before (next : UInt8) (count : Nat) : List UInt8 :=
  (List.range count).map fun i => next - UInt8.ofNat (count - i)

theorem before_succ (next : UInt8) (n : Nat) :
    before (next + 1) (n + 1) = before next n ++ [next] := by
  unfold before
  rw [range_succ, map_append]
  congr 1
  · refine map_congr_left fun i hi => ?_
    have hlt := mem_range.1 hi
    have hsb : n + 1 - i = n - i + 1 := by omega
    rw [hsb, UInt8.ofNat_add]
    grind
  · have hsb : n + 1 - n = 1 := by omega
    rw [map_singleton, hsb]
    exact congrArg (fun x => [x]) (UInt8.add_sub_cancel _ _)

theorem drop_before (next : UInt8) (n s : Nat) : (before next n).drop s = before next (n - s) := by
  refine ext_getElem (by simp [before]) fun i hi _ => ?_
  have hsb : n - (s + i) = n - s - i := by omega
  simp [before, hsb]

theorem nodup_before (next : UInt8) {n : Nat} (h : n ≤ maxPending) : (before next n).Nodup := by
  unfold maxPending at h
  refine .map_on ?_ nodup_range
  intro i hi j hj heq
  have hj := mem_range.1 hj
  have hof : .ofNat (n - i) = UInt8.ofNat (n - j) := by grind
  have hv := congrArg UInt8.toNat hof
  rw [UInt8.toNat_ofNat', UInt8.toNat_ofNat'] at hv
  omega

/-- A challenge of the receiver has been handled. -/
def Challenged (events : List (Event P)) : Prop :=
  ∃ challenge : Bytes, challenge.length = 16 ∧
    .handled .challenge (.message 2 0 challenge) ∈ events

/-- A challenge was handled, and after it the right response to ours. -/
def Authenticated (nonce : Bytes) (events : List (Event P)) : Prop :=
  ∃ earlier later, Challenged earlier ∧
    events = earlier ++ .handled .verifyResponse (.message 4 0 (challengeDigest nonce)) :: later

theorem Challenged.append {es : List (Event P)} (h : Challenged es)
    (m : List (Event P)) : Challenged (es ++ m) := by
  obtain ⟨c, hl, hm⟩ := h
  exact ⟨c, hl, mem_append_left _ hm⟩

theorem Authenticated.append {n : Bytes} {es : List (Event P)}
    (h : Authenticated n es) (m : List (Event P)) : Authenticated n (es ++ m) := by
  obtain ⟨er, l, hch, rfl⟩ := h
  exact ⟨er, l ++ m, hch, by simp⟩

def deliveries (events : List (Event P)) : List (ReceivedMessage P) :=
  events.filterMap fun
    | .delivered message => some message
    | .handled _ _ => none

structure Inv (h : Handshake P) : Prop where
  window : h.window = before h.next h.window.length
  bounded : h.window.length ≤ maxPending
  challenged : h.phase = .verifyResponse ∨ h.phase = .product ∨ h.phase = .receiving →
    Challenged h.history
  authenticated : h.phase = .product ∨ h.phase = .receiving → Authenticated h.nonce h.history
  /-- What is handled in phase `verifyResponse` comes after the challenge. -/
  responses : ∀ earlier record later,
    h.history = earlier ++ .handled .verifyResponse record :: later → Challenged earlier
  delivered : ∀ earlier message later,
    h.history = earlier ++ .delivered message :: later → Authenticated h.nonce earlier

variable {h h' : Handshake P} {evs : List (Event P)}

theorem eq_append_cons {e e' : Event P} {er l : List (Event P)} (heq : evs ++ [e] = er ++ e' :: l) :
    (∃ l', l = l' ++ [e] ∧ evs = er ++ e' :: l') ∨ e' = e ∧ er = evs := by
  obtain rfl | ⟨l', la, rfl⟩ := eq_nil_or_concat' l
  · obtain ⟨rfl, hsm⟩ := append_inj' heq rfl
    exact .inr ⟨(List.cons.inj hsm).1.symm, rfl⟩
  · have heq' : evs ++ [e] = (er ++ e' :: l') ++ [la] := by simpa using heq
    obtain ⟨rfl, hsm⟩ := append_inj' heq' rfl
    exact .inl ⟨l', by rw [(List.cons.inj hsm).1], rfl⟩

theorem Step.rank_le (hst : Step h h') : h.phase.rank ≤ h'.phase.rank := by
  cases hst with
  | acknowledge | send | handle | deliver => exact Nat.le_refl _
  | negotiate hph | request hph | verify hph | subscribe hph =>
    rw [hph]
    exact Nat.le_succ _
  | answer c hph =>
    rw [hph]
    exact Nat.le_succ _

theorem Step.nonce_eq (hst : Step h h') : h'.nonce = h.nonce := by cases hst <;> rfl

theorem Step.deliveries_eq {er : List (ReceivedMessage P)} (hst : Step h h')
    (heq : deliveries h.history = er ++ h.messages) :
    deliveries h'.history = er ++ h'.messages := by
  cases hst with
  | deliver msg hph =>
    simp only [deliveries, filterMap_append] at heq ⊢
    rw [heq]
    simp
  | handle r =>
    simp only [deliveries, filterMap_append] at heq ⊢
    rw [heq]
    simp
  | acknowledge | send | negotiate | request | answer | verify | subscribe => exact heq

theorem Inv.setPhase (hin : h.Inv) {p : ProtocolPhase}
    (hch : p = .verifyResponse ∨ p = .product ∨ p = .receiving → Challenged h.history)
    (hat : p = .product ∨ p = .receiving → Authenticated h.nonce h.history) :
    Inv { h with phase := p } :=
  ⟨hin.window, hin.bounded, hch, hat, hin.responses, hin.delivered⟩

theorem Inv.addEvent (hin : h.Inv) {e : Event P} {ms : List (ReceivedMessage P)}
    (hrs : ∀ r, e = .handled .verifyResponse r → Challenged h.history)
    (hdl : ∀ msg, e = .delivered msg → Authenticated h.nonce h.history) :
    Inv { h with history := h.history ++ [e], messages := ms } := by
  refine ⟨hin.window, hin.bounded, fun hph => (hin.challenged hph).append _,
    fun hph => (hin.authenticated hph).append _, ?_, ?_⟩
  · intro er r l heq
    obtain ⟨l', -, hbf⟩ | ⟨hl, rfl⟩ := eq_append_cons heq
    · exact hin.responses er r l' hbf
    · exact hrs r hl.symm
  · intro er msg l heq
    obtain ⟨l', -, hbf⟩ | ⟨hl, rfl⟩ := eq_append_cons heq
    · exact hin.delivered er msg l' hbf
    · exact hdl msg hl.symm

/-- Each step of the handshake keeps the invariant. -/
theorem Inv.step (hin : h.Inv) (hst : Step h h') : h'.Inv := by
  cases hst with
  | acknowledge n =>
    refine ⟨?_, ?_, hin.challenged, hin.authenticated, hin.responses, hin.delivered⟩
    · rw [length_drop, ← drop_before, ← hin.window]
    · have hbd := hin.bounded
      rw [length_drop]
      omega
  | send hrm =>
    refine ⟨?_, ?_, hin.challenged, hin.authenticated, hin.responses, hin.delivered⟩
    · rw [length_append, length_singleton, before_succ, ← hin.window]
    · have hbd := hin.bounded
      rw [length_append, length_singleton]
      omega
  | negotiate hph => exact hin.setPhase nofun nofun
  | request hph => exact hin.setPhase nofun nofun
  | handle r =>
    refine hin.addEvent (fun r' heq => ?_) nofun
    exact hin.challenged (.inl (Event.handled.inj heq).1)
  | answer c hph hl hm => exact hin.setPhase (fun _ => ⟨c, hl, hm⟩) nofun
  | verify hph hm =>
    obtain ⟨er, l, heq⟩ := append_of_mem hm
    refine hin.setPhase (fun _ => hin.challenged (.inl hph)) fun _ => ?_
    exact ⟨er, l, hin.responses _ _ _ heq, heq⟩
  | subscribe hph =>
    exact hin.setPhase (fun _ => hin.challenged (.inr (.inl hph)))
      fun _ => hin.authenticated (.inl hph)
  | deliver msg hph => exact hin.addEvent nofun fun _ _ => hin.authenticated (.inr hph)

end Handshake

end Aerobag.Receiver
