import Aerobag.Receiver.Handshake

/-!
# The handshake of a connection

Every command of the protocol is a sequence of steps of the handshake, so what the steps keep holds
after every call.
-/

open List

namespace Aerobag.Receiver

open Command

variable {P : Type}

namespace Work

/-- The handshake that a protocol state implements. -/
def handshake (work : Work P) : Handshake P where
  phase := work.self.phase
  nonce := work.self.nonce
  window := work.self.pending.map (·.frame.sequence)
  next := work.self.nextTxSequence
  history := work.self.history
  messages := work.output.messages

/-- The response that is expected is the one to this connection's challenge. -/
def Expecting (work : Work P) : Prop :=
  ∀ expected ∈ work.self.expectedResponse, expected = challengeDigest work.self.nonce

/-- A part of a call: a sequence of steps of the handshake. -/
def Advances (work work' : Work P) : Prop :=
  work.Expecting → work'.Expecting ∧
    Relation.ReflTransGen Handshake.Step work.handshake work'.handshake

instance : Std.Refl (Advances (P := P)) where
  refl _ h := ⟨h, .refl⟩

instance : IsTrans (Work P) Advances where
  trans _ _ _ hab hbc ha :=
    have hb := hab ha
    have hc := hbc hb.1
    ⟨hc.1, hb.2.trans hc.2⟩

variable {wr wr' : Work P}

theorem Advances.of_eq (he : wr'.self.expectedResponse = wr.self.expectedResponse)
    (hhn : wr'.handshake = wr.handshake) : wr.Advances wr' := by
  intro h
  refine ⟨?_, hhn ▸ .refl⟩
  have hnn : wr'.self.nonce = wr.self.nonce := congrArg Handshake.nonce hhn
  rwa [Expecting, he, hnn]

theorem Advances.of_step (he : wr'.self.expectedResponse = wr.self.expectedResponse)
    (hst : Handshake.Step wr.handshake wr'.handshake) : wr.Advances wr' := by
  intro h
  refine ⟨?_, .single hst⟩
  have hnn : wr'.self.nonce = wr.self.nonce := hst.nonce_eq
  rwa [Expecting, he, hnn]

end Work

namespace Protocol

open Work

variable {wr : Work P} {nms : UInt64}

abbrev Stepwise {α : Type} (x : Exchange P α) (work : Work P) : Prop := Moves Advances x work

theorem send_ends (k : UInt8) (pl : Bytes) : Ends (send k pl nms) wr fun _ w' => wr.Advances w' ∧
      w'.self.phase = wr.self.phase ∧ w'.self.history = wr.self.history ∧
      w'.self.nonce = wr.self.nonce := by
  have hrf : wr.Advances wr ∧ wr.self.phase = wr.self.phase ∧
      wr.self.history = wr.self.history ∧ wr.self.nonce = wr.self.nonce :=
    ⟨Std.Refl.refl _, rfl, rfl, rfl⟩
  unfold send
  rw [ends_get_bind]
  rw [ends_attempt_bind]
  refine ⟨fun _ hrm => ?_, fun _ _ => hrf⟩
  rw [Except.rejectIf_eq_ok] at hrm
  rw [ends_attempt_bind]
  refine ⟨fun bs _ => ?_, fun _ _ => hrf⟩
  rw [ends_modify_bind]
  split
  · next hpy =>
    refine ⟨.of_step rfl ?_, rfl, rfl, rfl⟩
    have hl : wr.handshake.window.length ≠ maxPending := by
      unfold handshake
      rw [length_map]
      exact fun hfl => hrm ⟨hpy, hfl⟩
    have hst := Handshake.Step.send _ hl
    simpa [handshake, transmit, update, enqueue] using hst
  · exact ⟨.of_eq rfl rfl, rfl, rfl, rfl⟩

theorem stepwise_send (k : UInt8) (pl : Bytes) : Stepwise (send k pl nms) wr :=
  (send_ends k pl).imp fun _ _ h => h.1

theorem stepwise_send_transition (k : UInt8) (pl : Bytes) {p : ProtocolPhase}
    (hst : ∀ h : Handshake P, h.phase = wr.self.phase → h.history = wr.self.history →
      h.nonce = wr.self.nonce → Handshake.Step h { h with phase := p }) :
    Stepwise (send k pl nms >>= fun _ => transition p nms) wr := by
  refine (send_ends k pl).bind ?_ fun _ _ h => h.1
  intro _ w' h
  obtain ⟨had, hph, hhs, hnn⟩ := h
  unfold transition
  refine IsTrans.trans _ _ _ had (.of_step rfl ?_)
  exact hst w'.handshake hph hhs hnn

/-- It is enough to look at states in which the expected response is the right one. -/
theorem stepwise_of_expecting {α : Type} {x : Exchange P α} (h : wr.Expecting → Stepwise x wr) :
    Stepwise x wr :=
  ends_iff.2 fun heg => ends_iff.1 (h heg) heg

theorem stepwise_checkClock : Stepwise (checkClock nms) wr := by
  unfold checkClock
  refine moves_attempt_bind fun _ _ => moves_attempt_bind fun _ _ => ?_
  exact moves_modify.2 (.of_eq rfl rfl)

theorem stepwise_feedFramer (bs : Bytes) : Stepwise (feedFramer bs) wr := by
  unfold feedFramer
  rw [Stepwise, moves_get_bind]
  exact moves_modify_bind (.of_eq rfl rfl) moves_attempt

theorem stepwise_feedApplication (bs : Bytes) : Stepwise (feedApplication bs) wr := by
  unfold feedApplication
  rw [Stepwise, moves_get_bind]
  exact moves_modify_bind (.of_eq rfl rfl) moves_attempt

theorem stepwise_acceptSequence (f : Frame) : Stepwise (acceptSequence f) wr := by
  unfold acceptSequence
  refine moves_attempt_bind fun a _ => ?_
  exact moves_modify_bind (.of_eq rfl rfl) moves_pure

theorem stepwise_advertise (r : ApplicationRecord) : Stepwise (advertise r) wr := by
  cases r with
  | control mi cs => exact moves_pure
  | message mi a d =>
    unfold advertise
    dsimp only
    split
    · refine moves_attempt_bind fun _ _ => ?_
      exact moves_modify.2 (.of_eq rfl rfl)
    · exact moves_pure

theorem stepwise_negotiate (k : UInt8) (hph : wr.self.phase = .negotiating) :
    Stepwise (negotiate k nms) wr := by
  refine moves_attempt_bind fun _ _ => stepwise_send_transition _ _ ?_
  intro h hsm _ _
  exact .negotiate h (hsm.trans hph)

theorem stepwise_requestChallenge : Stepwise (requestChallenge nms) wr := by
  unfold requestChallenge
  rw [Stepwise, moves_get_bind]
  dsimp only
  split
  · next hr =>
    refine stepwise_send_transition _ _ fun h hsm _ _ => ?_
    exact .request h (hsm.trans hr.1)
  · exact moves_pure

theorem stepwise_answerNotifications (cs : Bytes) : Stepwise (answerNotifications cs nms) wr := by
  unfold answerNotifications
  rw [Stepwise, moves_get_bind]
  refine moves_attempt_bind fun ids _ => ?_
  dsimp only
  split
  · exact stepwise_send _ _
  · exact moves_pure

variable {d : Bytes}

theorem stepwise_answerChallenge (hph : wr.self.phase = .challenge)
    (hhn : .handled .challenge (.message 2 0 d) ∈ wr.self.history) :
    Stepwise (answerChallenge d nms) wr := by
  refine moves_attempt_bind fun _ hl => ?_
  rw [Except.rejectIf_eq_ok, not_not] at hl
  rw [moves_get_bind]
  refine moves_modify_bind ?_ (stepwise_send_transition _ _ ?_)
  · intro _
    refine ⟨?_, .refl⟩
    intro e he
    exact (Option.some.inj he).symm
  · intro h hsm hhs _
    refine .answer h d (hsm.trans hph) hl ?_
    rw [hhs]
    exact hhn

theorem foldl_differences_eq_zero {ps : List (UInt8 × UInt8)} {st : UInt8}
    (h : ps.foldl (fun d p => d ||| (p.1 ^^^ p.2)) st = 0) : st = 0 ∧ ∀ p ∈ ps, p.1 = p.2 := by
  induction ps generalizing st with
  | nil => exact ⟨h, nofun⟩
  | cons p ps ih =>
    obtain ⟨hs, hpr⟩ := ih h
    rw [UInt8.or_eq_zero_iff, UInt8.xor_eq_zero_iff] at hs
    exact ⟨hs.1, forall_mem_cons.2 ⟨hs.2, hpr⟩⟩

/-- The comparison that takes the same time everywhere compares. -/
theorem eq_of_not_differs {e : Bytes} (h : ¬differs d e) : d = e := by
  obtain ⟨hl, hfl⟩ := not_or.1 h
  obtain ⟨-, hpr⟩ := foldl_differences_eq_zero (not_not.1 hfl)
  refine ext_getElem (not_not.1 hl) fun i hi hi' => ?_
  have hm : (d[i], e[i]) ∈ d.zip e := by
    rw [← getElem_zip (h := by simp [hi, hi'])]
    exact getElem_mem _
  exact hpr _ hm

theorem stepwise_verifyResponse (hph : wr.self.phase = .verifyResponse)
    (hhn : .handled .verifyResponse (.message 4 0 d) ∈ wr.self.history) :
    Stepwise (verifyResponse d nms) wr := by
  refine stepwise_of_expecting fun heg => ?_
  unfold verifyResponse
  rw [Stepwise, moves_get_bind]
  refine moves_modify_bind ?_ ?_
  · intro _
    exact ⟨nofun, .refl⟩
  · refine moves_attempt_bind fun e he => moves_attempt_bind fun _ hsm => ?_
    refine moves_attempt_bind fun _ _ => stepwise_send_transition _ _ ?_
    rw [Except.rejectIf_eq_ok] at hsm
    have hso : wr.self.expectedResponse = some e := by
      cases hrs : wr.self.expectedResponse with
      | none => simp [hrs] at he
      | some r => simpa [hrs] using he
    have hdt : d = challengeDigest wr.self.nonce := (eq_of_not_differs hsm).trans (heg e hso)
    intro h hph' hhs hnn
    refine .verify h (hph'.trans hph) ?_
    rw [hhs, hnn]
    exact hdt ▸ hhn

theorem stepwise_identify (mi : UInt32) : Stepwise (identify mi nms) wr := by
  unfold identify
  rw [Stepwise, moves_get_bind]
  split
  · next hpr =>
    unfold subscribe
    rw [moves_get_bind]
    refine stepwise_send_transition _ _ fun h hsm _ _ => ?_
    exact .subscribe h (hsm.trans hpr.2)
  · exact moves_pure

variable (decodeProduct : UInt32 → Bytes → Except Fault P)

theorem stepwise_passOn (mi : UInt32) (a : UInt8) (d : Bytes) :
    Stepwise (passOn decodeProduct mi a d nms) wr := by
  refine (stepwise_identify mi).bind fun _ w' => ?_
  rw [moves_get_bind]
  split
  · next hrc =>
    refine moves_modify.2 (.of_step rfl ?_)
    exact .deliver w'.handshake _ hrc.2
  · exact moves_pure

/-- One record of an application message, by the phase. -/
theorem stepwise_handleRecord (r : ApplicationRecord) :
    Stepwise (handleRecord decodeProduct nms r) wr := by
  unfold handleRecord
  rw [Stepwise, moves_get_bind]
  refine moves_modify_bind (.of_step rfl (.handle wr.handshake r)) ?_
  cases r with
  | control mi cs =>
    dsimp only
    split
    · exact stepwise_answerNotifications cs
    · exact moves_pure
  | message mi a d =>
    dsimp only
    split
    · next hch =>
      obtain ⟨rfl, rfl, hph⟩ := hch
      refine stepwise_answerChallenge hph ?_
      simp [update, hph]
    · split
      · next hrs =>
        obtain ⟨rfl, rfl, hph⟩ := hrs
        refine stepwise_verifyResponse hph ?_
        simp [update, hph]
      · exact stepwise_passOn decodeProduct mi a d

theorem stepwise_receiveRecords (f : Frame) : Stepwise (receiveRecords decodeProduct f nms) wr := by
  unfold receiveRecords
  refine moves_attempt_bind fun _ _ => ?_
  refine (stepwise_feedApplication f.payload).bind fun rs _ => ?_
  refine (moves_forM (fun r _ => stepwise_advertise r) rs).bind fun _ _ => ?_
  refine stepwise_requestChallenge.bind fun _ _ => ?_
  refine (moves_forM (fun r _ => stepwise_handleRecord decodeProduct r) rs).bind fun _ _ => ?_
  rw [moves_get_bind]
  split
  · exact stepwise_send _ _
  · exact moves_pure

theorem stepwise_receivePayload (f : Frame) : Stepwise (receivePayload decodeProduct f nms) wr := by
  refine moves_modify_bind (.of_eq rfl rfl) ?_
  rw [moves_get_bind]
  split
  · next hph => exact stepwise_negotiate f.kind hph
  · exact stepwise_receiveRecords decodeProduct f

theorem advances_acknowledge (a : UInt8) : wr.Advances (wr.update (acknowledge a)) := by
  unfold acknowledge
  cases hix : wr.self.pending.findIdx? fun pd => pd.frame.sequence = a with
  | none =>
    refine .of_eq ?_ ?_
    · simp [update, hix]
    · simp [update, hix]
  | some i =>
    refine .of_step ?_ ?_
    · simp [update, hix]
    · have hst := Handshake.Step.acknowledge wr.handshake (i + 1)
      simpa [update, handshake, hix] using hst

theorem stepwise_receiveFrame (f : Frame) : Stepwise (receiveFrame decodeProduct nms f) wr := by
  refine moves_attempt_bind fun _ _ => moves_modify_bind (advances_acknowledge _) ?_
  split
  · exact moves_pure
  · refine (stepwise_acceptSequence f).bind fun fr _ => ?_
    split
    · exact stepwise_receivePayload decodeProduct f
    · exact stepwise_send _ _

theorem stepwise_receiveInner (bs : Bytes) : Stepwise (receiveInner decodeProduct bs nms) wr := by
  refine stepwise_checkClock.bind fun _ _ => (stepwise_feedFramer bs).bind fun fs _ => ?_
  exact moves_forM (fun f _ => stepwise_receiveFrame decodeProduct f) fs

theorem sequence_retransmit {a : UInt8} {pd : List Pending}
    {s : List (Pending × Bytes)} (h : retransmit a nms pd = .ok s) :
    (s.map Prod.fst).map (·.frame.sequence) = pd.map (·.frame.sequence) := by
  induction pd generalizing s with
  | nil =>
    obtain rfl : [] = s := Except.ok.inj h
    rfl
  | cons first r ih =>
    simp only [retransmit, Except.bind_eq_ok, Except.pure_eq_ok] at h
    obtain ⟨-, -, bs, -, l, hla, rfl⟩ := h
    rw [map_cons, map_cons, map_cons, ih hla]

theorem stepwise_tickInner : Stepwise (tickInner nms) wr := by
  refine stepwise_checkClock.bind fun _ w' => ?_
  refine moves_attempt_bind fun _ _ => ?_
  split
  · unfold retransmitAll
    refine moves_attempt_bind fun s hsn => moves_modify.2 (.of_eq rfl ?_)
    have hsq := sequence_retransmit hsn
    simp [handshake, update, hsq]
  · exact moves_pure

structure Inv (nonce : Bytes) (protocol : Protocol P) : Prop where
  nonce : protocol.nonce = nonce
  expecting : protocol.idle.Expecting
  handshake : protocol.idle.handshake.Inv

variable {nonce : Bytes} {sl : Protocol P}

theorem rank_le_of_steps {h h' : Handshake P} (hss : Relation.ReflTransGen Handshake.Step h h') :
    h.phase.rank ≤ h'.phase.rank := by
  induction hss with
  | refl => exact Nat.le_refl _
  | tail _ hst ih => exact ih.trans hst.rank_le

/-- The handshake's invariant is kept over any number of its steps. -/
theorem inv_of_steps {h h' : Handshake P} (hss : Relation.ReflTransGen Handshake.Step h h')
    (hin : h.Inv) : h'.Inv ∧ h'.nonce = h.nonce := by
  induction hss with
  | refl => exact ⟨hin, rfl⟩
  | tail _ hst ih => exact ⟨ih.1.step hst, hst.nonce_eq.trans ih.2⟩

variable {er : List (ReceivedMessage P)}

theorem deliveries_of_steps {h h' : Handshake P} (hss : Relation.ReflTransGen Handshake.Step h h')
    (heq : Handshake.deliveries h.history = er ++ h.messages) :
    Handshake.deliveries h'.history = er ++ h'.messages := by
  induction hss with
  | refl => exact heq
  | tail _ hst ih => exact hst.deliveries_eq ih

variable {w : Work P}

theorem inv_idle (h : w.handshake.Inv) : w.self.idle.handshake.Inv :=
  ⟨h.window, h.bounded, h.challenged, h.authenticated, h.responses, h.delivered⟩

theorem inv_fail (h : w.handshake.Inv) : w.self.fail.idle.handshake.Inv :=
  ⟨rfl, Nat.zero_le _, nofun, nofun, h.responses, h.delivered⟩

/-- A call keeps the invariant, whether it succeeds or fails. -/
theorem Inv.run (h : sl.Inv nonce) {x : Exchange P Unit} (hx : Stepwise x sl.idle) :
    (sl.run x).1.Inv nonce ∧ sl.phase.rank ≤ (sl.run x).1.phase.rank ∧
      (∀ f, (sl.run x).2 = .error f → (sl.run x).1.phase = .failed) ∧
      ∀ out, (sl.run x).2 = .ok out → Handshake.deliveries (sl.run x).1.history =
          Handshake.deliveries sl.history ++ out.messages := by
  unfold Protocol.run
  cases hr : x.run sl.idle with
  | ok a w =>
    obtain ⟨heg, hst⟩ := hx.of_ok hr h.expecting
    obtain ⟨hin, hnn⟩ := inv_of_steps hst h.handshake
    refine ⟨⟨hnn.trans h.nonce, heg, inv_idle hin⟩, rank_le_of_steps hst, nofun, ?_⟩
    rintro out ⟨⟩
    exact deliveries_of_steps hst (append_nil _).symm
  | error f w =>
    obtain ⟨heg, hst⟩ := hx.of_error hr h.expecting
    obtain ⟨hin, hnn⟩ := inv_of_steps hst h.handshake
    exact ⟨⟨hnn.trans h.nonce, heg, inv_fail hin⟩, ProtocolPhase.rank_le_failed _,
      fun _ _ => rfl, nofun⟩

theorem Inv.call (h : sl.Inv nonce) (c : ProtocolCall) : (sl.call decodeProduct c).1.Inv nonce ∧
      sl.phase.rank ≤ (sl.call decodeProduct c).1.phase.rank ∧
      (∀ f, (sl.call decodeProduct c).2 = .error f → (sl.call decodeProduct c).1.phase = .failed) ∧
      ∀ out, (sl.call decodeProduct c).2 = .ok out →
        Handshake.deliveries (sl.call decodeProduct c).1.history =
          Handshake.deliveries sl.history ++ out.messages := by
  cases c with
  | receive bs nm => exact h.run (stepwise_receiveInner decodeProduct bs)
  | tick nm => exact h.run stepwise_tickInner

theorem run_of_failed {f : Unit → Exchange P Unit} (h : sl.phase = .failed) :
    (sl.run (checkClock nms >>= f)).1.phase = .failed ∧ (sl.run (checkClock nms >>= f)).2 =
        .error (.decodeError "receiver reconnect required") := by
  have hcl : (checkClock nms).run sl.idle =
      .error (.decodeError "receiver reconnect required") sl.idle := by
    have hrj : Except.rejectIf (sl.phase = .failed)
        (Fault.decodeError "receiver reconnect required") =
          .error (.decodeError "receiver reconnect required") := if_pos h
    change (attempt (.rejectIf (sl.phase = .failed)
      (.decodeError "receiver reconnect required")) >>= _ : Exchange P Unit).run sl.idle = _
    rw [hrj]
    rfl
  unfold run
  rw [run_bind, hcl]
  exact ⟨rfl, rfl⟩

theorem call_of_failed (h : sl.phase = .failed) (c : ProtocolCall) :
    (sl.call decodeProduct c).1.phase = .failed ∧
      (sl.call decodeProduct c).2 = .error (.decodeError "receiver reconnect required") := by
  cases c with
  | receive bs nm => exact run_of_failed h
  | tick nm => exact run_of_failed h

theorem phase_calls_of_failed (h : sl.phase = .failed) (cs : List ProtocolCall) :
    (sl.calls decodeProduct cs).1.phase = .failed := by
  induction cs generalizing sl with
  | nil => exact h
  | cons first r ih => exact ih (call_of_failed decodeProduct h first).1

theorem error_of_failed (h : sl.phase = .failed) {cs : List ProtocolCall}
    {res : Except Fault (ProtocolOutput P)}
    (hrs : res ∈ (sl.calls decodeProduct cs).2) : ∃ f, res = .error f := by
  induction cs generalizing sl with
  | nil => exact nomatch hrs
  | cons first r ih =>
    obtain ⟨hph, he⟩ := call_of_failed decodeProduct h first
    rcases mem_cons.1 hrs with rfl | hr
    · exact ⟨_, he⟩
    · exact ih hph hr

theorem inv_opened {nm : UInt64} {n : Bytes} : (opened nm n : Protocol P).Inv n := by
  refine ⟨rfl, nofun, ⟨rfl, Nat.zero_le _, nofun, nofun, ?_, ?_⟩⟩
  · intro er r l heq
    simp [handshake, idle, opened] at heq
  · intro er r l heq
    simp [handshake, idle, opened] at heq

variable {out : ProtocolOutput P}

theorem inv_withNonce {nm : UInt64} {n : Bytes}
    (h : withNonce nm n = .ok (sl, out)) : sl.Inv n := by
  unfold withNonce at h
  cases hr : (send 3 negotiation nm).run (opened nm n).idle with
  | error f w =>
    rw [hr] at h
    exact nomatch h
  | ok a w =>
    rw [hr] at h
    obtain ⟨rfl, -⟩ := Prod.mk.inj (Except.ok.inj h)
    have hod : (opened nm n : Protocol P).Inv n := inv_opened
    have hsn : Ends (send 3 negotiation nm) (opened nm n : Protocol P).idle _ :=
      stepwise_send 3 negotiation
    obtain ⟨heg, hst⟩ := hsn.of_ok hr hod.expecting
    obtain ⟨hw, hnn⟩ := inv_of_steps hst hod.handshake
    exact ⟨hnn.trans hod.nonce, heg, inv_idle hw⟩

theorem Inv.calls (h : sl.Inv nonce) (cs : List ProtocolCall) :
    (sl.calls decodeProduct cs).1.Inv nonce ∧ ∀ f, .error f ∈ (sl.calls decodeProduct cs).2 →
        (sl.calls decodeProduct cs).1.phase = .failed := by
  induction cs generalizing sl with
  | nil => exact ⟨h, nofun⟩
  | cons first r ih =>
    obtain ⟨hnx, -, hfa, -⟩ := h.call decodeProduct first
    obtain ⟨hl, hla⟩ := ih hnx
    refine ⟨hl, fun f hfl => ?_⟩
    rcases mem_cons.1 hfl with hf | hr
    · exact phase_calls_of_failed decodeProduct (hfa f hf.symm) r
    · exact hla f hr

theorem authenticated_of_mem {next : Protocol P} (h : next.Inv nonce)
    (hdl : Handshake.deliveries next.history = er ++ out.messages)
    {msg : ReceivedMessage P} (hms : msg ∈ out.messages) :
    ∃ es l, next.history = es ++ .delivered msg :: l ∧ Handshake.Authenticated nonce es := by
  have hm : msg ∈ Handshake.deliveries next.history := by
    rw [hdl]
    exact mem_append_right _ hms
  obtain ⟨ev, hev, hsm⟩ := mem_filterMap.1 hm
  cases ev with
  | handled ph r => exact nomatch hsm
  | delivered msg' =>
    obtain rfl := Option.some.inj hsm
    obtain ⟨es, l, heq⟩ := append_of_mem hev
    exact ⟨es, l, heq, h.nonce ▸ h.handshake.delivered _ _ _ heq⟩

/-- The phase does not go back; a message is only delivered after a challenge of the receiver and
its right response to ours; an error leaves the connection failed, and all later calls return
errors; and the frames that wait for an acknowledgement have the sequence numbers just before the
next one. -/
theorem handshake_safe (nowMs : UInt64) (nonce : Bytes) (self : Protocol P)
    (output : ProtocolOutput P) (hconnect : withNonce nowMs nonce = .ok (self, output))
    (calls : List ProtocolCall) (call : ProtocolCall) :
    let reached := (self.calls decodeProduct calls).1
    let next := reached.call decodeProduct call
    reached.phase.rank ≤ next.1.phase.rank ∧
    (∀ output, next.2 = .ok output →
      Handshake.deliveries next.1.history =
        Handshake.deliveries reached.history ++ output.messages ∧
      ∀ message ∈ output.messages, ∃ events later,
        next.1.history = events ++ .delivered message :: later ∧
          Handshake.Authenticated nonce events) ∧
    (∀ fault, next.2 = .error fault → next.1.phase = .failed ∧
      ∀ after, ∀ result ∈ (next.1.calls decodeProduct after).2, ∃ fault', result = .error fault') ∧
    (∀ fault, .error fault ∈ (self.calls decodeProduct calls).2 → ∃ fault', next.2 = .error fault') ∧
    reached.pending.map (·.frame.sequence) =
      Handshake.before reached.nextTxSequence reached.pending.length ∧
    (reached.pending.map (·.frame.sequence)).Nodup ∧ reached.pending.length ≤ maxPending := by
  intro reached next
  obtain ⟨hrc, hfa⟩ := (inv_withNonce hconnect).calls decodeProduct calls
  obtain ⟨hnx, hrn, he, hok⟩ := hrc.call decodeProduct call
  have hwn := hrc.handshake.window
  have hbd := hrc.handshake.bounded
  simp only [handshake, idle, length_map] at hwn hbd
  refine ⟨hrn, ?_, ?_, ?_, hwn, ?_, hbd⟩
  · intro output hot
    have hdl := hok output hot
    exact ⟨hdl, fun msg => authenticated_of_mem hnx hdl⟩
  · intro fault hfl
    have hph := he fault hfl
    exact ⟨hph, fun after res => error_of_failed decodeProduct hph⟩
  · intro fault hfl
    exact ⟨_, (call_of_failed decodeProduct (hfa fault hfl) call).2⟩
  · rw [hwn]
    exact Handshake.nodup_before _ hbd

def frameCall (kind sequence acknowledgement : UInt8) (payload : Bytes) : ProtocolCall :=
  .receive ((Frame.encode { kind, sequence, acknowledgement, payload }).toOption.getD [])
    sequence.toUInt64

/-- The frames of a handshake with the nonce `[9; 16]`, up to the response. -/
def sampleHandshake : List ProtocolCall := [
  frameCall 3 1 1 negotiation,
  frameCall 2 2 2 (message 0 [2, 0, 0, 0, 4, 0, 0, 0]),
  frameCall 2 3 3 (message 2 (List.replicate 16 8)),
  frameCall 2 4 4 (message 4 [0x2b, 0x34, 0xfe, 0x38, 0xd8, 0x5e, 0xb3, 0xeb, 0x2b, 0x32, 0x7b, 0x66,
    0x6c, 0x24, 0x4c, 0x6d] ++ message 0 [0, 0x10, 0, 0])]

/-- A product of which nothing is known but its message and its length. -/
def uninterpreted (messageId : UInt32) (data : Bytes) : Except Fault (UInt32 × Nat) :=
  .ok (messageId, data.length)

def sampleIdentity : ProtocolCall := frameCall 2 5 5 (message 0x1000 [0x47, 6])

/-- The product identity is delivered, and the handshake comes before it. -/
theorem handshake_safe_identity : ∃ (self next : Protocol (UInt32 × Nat))
    (output : ProtocolOutput (UInt32 × Nat)) (message : ReceivedMessage (UInt32 × Nat))
    (events later : List (Event (UInt32 × Nat))),
    (self.calls uninterpreted sampleHandshake).1.call uninterpreted sampleIdentity =
      (next, .ok output) ∧
    message ∈ output.messages ∧ next.history = events ++ .delivered message :: later ∧
    Handshake.Authenticated (List.replicate 16 9) events := by
  have hr : (withNonce 0 (List.replicate 16 9)).toOption.any (fun connected =>
      ((connected.1.calls uninterpreted sampleHandshake).1.call uninterpreted
        sampleIdentity).2.toOption.any fun output => !output.messages.isEmpty) = true := by
    decide +kernel
  obtain ⟨⟨self, start⟩, hcn, hcl⟩ := (Option.any_eq_true _ _).1 hr
  obtain ⟨output, hot, hms⟩ := (Option.any_eq_true _ _).1 hcl
  rw [Except.toOption_eq_some] at hcn hot
  obtain ⟨message, hm⟩ := exists_mem_of_ne_nil output.messages (by simpa using hms)
  obtain ⟨-, hdl, -⟩ := handshake_safe uninterpreted 0 (List.replicate 16 9) self start hcn
    sampleHandshake sampleIdentity
  obtain ⟨events, later, hhs, hev⟩ := (hdl output hot).2 message hm
  exact ⟨self, _, output, message, events, later, Prod.ext rfl hot, hm, hhs, hev⟩

end Protocol

end Aerobag.Receiver
