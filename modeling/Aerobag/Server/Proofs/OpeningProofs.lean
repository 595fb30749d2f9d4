import Aerobag.Server.Proofs.EventProofs

/-!
# Opening an event stream

What `initial_sse_events` returns when all its statements see the same history: the events after the
cursor, or a reset. A commit between two statements breaks this.
-/

open List Option

namespace Aerobag.Server

variable {P : Primitives} {cfg : StoreConfig} {db : Database} {account : String}
  {log : List String} {rs : InitialReads} {c : Nat}

namespace Logged

theorem numbered_accountEvents (h : Logged cfg db account log) :
    Numbered.From RootEventRow.sequence (1 + (log.length - cfg.eventRetention))
      (accountEvents db account) := by
  rw [h.accountEvents_eq]
  exact (numbered_logEvents account log).drop _

theorem events_after (h : Logged cfg db account log) (hc : log.length - cfg.eventRetention ≤ c) :
    (accountEvents db account).filter (fun ev => c < ev.sequence) =
      (logEvents account log).drop c := by
  have hix : log.length - cfg.eventRetention +
      (c + 1 - (1 + (log.length - cfg.eventRetention))) = c := by omega
  rw [h.numbered_accountEvents.filter_lt, h.accountEvents_eq, drop_drop, hix]

theorem sequences_accountEvents (h : Logged cfg db account log) :
    (accountEvents db account).map RootEventRow.sequence =
      List.range' (log.length + 1 - min log.length cfg.eventRetention)
        (min log.length cfg.eventRetention) := by
  have hf : 1 + (log.length - cfg.eventRetention) =
      log.length + 1 - min log.length cfg.eventRetention := by omega
  have hc : log.length - (log.length - cfg.eventRetention) =
      min log.length cfg.eventRetention := by omega
  rw [h.numbered_accountEvents.map_eq, h.accountEvents_eq, length_drop, length_logEvents, hf, hc]

theorem min?_accountEvents (h : Logged cfg db account log) (hrt : 0 < cfg.eventRetention) :
    ((accountEvents db account).map RootEventRow.sequence).min? =
      if log = [] then none else some (1 + (log.length - cfg.eventRetention)) := by
  have hnm := h.numbered_accountEvents
  have hl := congrArg List.length h.accountEvents_eq
  rw [length_drop, length_logEvents] at hl
  split
  · next hlg =>
    rw [hlg, length_nil, Nat.zero_sub, length_eq_zero_iff] at hl
    rw [hl]
    rfl
  · next hlg =>
    have hp := length_pos_of_ne_nil hlg
    cases hev : accountEvents db account with
    | nil =>
      rw [hev, length_nil] at hl
      omega
    | cons ev es =>
      rw [hev] at hnm
      exact hnm.min?_map

/-- The state at a cursor that is retained is the one of the log. -/
theorem eventStateAt_eq (h : Logged cfg db account log) (hc : c ≤ log.length)
    (hr : c = 0 ∨ log.length - cfg.eventRetention < c) :
    eventStateAt db account c = .ok (c, (log.take c).getLast?) := by
  unfold eventStateAt
  by_cases hzr : c = 0
  · rw [hzr]
    rfl
  · have hln := congrArg List.length h.accountEvents_eq
    rw [length_drop, length_logEvents] at hln
    have hlt : c - 1 < log.length := by omega
    have hix : log.length - cfg.eventRetention +
        (c - (1 + (log.length - cfg.eventRetention))) = c - 1 := by omega
    have hl : (log.take c).getLast? = log[c - 1]? := by
      rw [getLast?_eq_getElem?, length_take, Nat.min_eq_left hc, getElem?_take_of_lt]
      omega
    have hev : ((accountEvents db account).filter fun ev => ev.sequence ≤ c).getLast? =
        some ⟨account, c, c, log[c - 1]⟩ := by
      rw [h.numbered_accountEvents.getLast?_filter_le (by omega) (by omega), h.accountEvents_eq,
        getElem?_drop, hix, getElem?_logEvents, getElem?_eq_getElem hlt,
        Nat.sub_add_cancel (by omega)]
      rfl
    rw [if_neg hzr, hev, hl, getElem?_eq_getElem hlt]

end Logged

theorem currentEventState_eq {sq r : Database} (hsq : Logged cfg sq account log)
    (hrt : Logged cfg r account log) (ha : (sq.accounts.get? account).isSome) :
    currentEventState sq r account = .ok (log.length, log.length, log.getLast?) := by
  obtain ⟨f, hfd⟩ := isSome_iff_exists.1 ha
  have hl := hsq.sequence
  rw [eventSequence, hfd] at hl
  rw [currentEventState, hfd]
  simp only
  rw [hrt.revision, hrt.rootHash]
  exact congrArg (fun n => Except.ok (n, log.length, log.getLast?)) hl

/-- A stream that goes on from a cursor: the state at the cursor and the events after it. -/
def replayFrom (account : String) (log : List String) (c : Nat) : List AcsSseEvent :=
  .ready c c (log.take c).getLast? :: ((logEvents account log).drop c).map fun event =>
    .rootChanged event.sequence event.rootRevision event.rootHash

/-- All statements of an opening have seen the same log. -/
structure InitialReads.Steady (cfg : StoreConfig) (account : String) (log : List String)
    (reads : InitialReads) : Prop where
  remains : (reads.accountMode.accounts.get? account).isSome →
    (reads.sequence.accounts.get? account).isSome
  sequence : Logged cfg reads.sequence account log
  root : Logged cfg reads.root account log
  minimum : Logged cfg reads.minimum account log
  cursorState : Logged cfg reads.cursorState account log
  events : Logged cfg reads.events account log

theorem InitialReads.exists_of_readable (h : rs.ensureAccountReadable account = .ok ()) :
    (rs.accountMode.accounts.get? account).isSome := by
  unfold ensureAccountReadable at h
  rw [Except.bind_eq_ok] at h
  split at h
  · simp at h
  · next hfd =>
    rw [hfd]
    rfl

/-- With a cursor inside the retained history the stream goes on from it, and otherwise it starts
with a reset to the current root. -/
theorem InitialReads.Steady.initialSseEvents_cases (h : rs.Steady cfg account log)
    (hrt : 0 < cfg.eventRetention)
    (hrd : rs.ensureAccountReadable account = .ok ()) (cr : Option Nat) :
    (cr.getD log.length ≤ log.length ∧ rs.initialSseEvents account cr =
      .ok (replayFrom account log (cr.getD log.length))) ∨
    rs.initialSseEvents account cr = .ok [.reset log.length log.length log.getLast?] := by
  have hst := currentEventState_eq h.sequence h.root
    (h.remains (InitialReads.exists_of_readable hrd))
  simp only [initialSseEvents, hrd, hst, bind, Except.bind]
  cases cr with
  | none =>
    refine .inl ⟨le_rfl, ?_⟩
    have hnt : (logEvents account log).drop log.length = [] := drop_eq_nil_of_le length_logEvents.le
    simp only [getD_none, replayFrom, hnt, take_length]
    rfl
  | some c =>
    simp only [getD_some]
    by_cases hla : c > log.length
    · rw [if_pos hla]
      exact .inr rfl
    have hc : c ≤ log.length := not_lt.1 hla
    rw [if_neg hla, h.minimum.min?_accountEvents hrt]
    -- The cursor is before the retained events, and there are some.
    by_cases hold : log ≠ [] ∧ c < 1 + (log.length - cfg.eventRetention) ∧
        ¬ (c = 0 ∧ 1 + (log.length - cfg.eventRetention) = 1)
    · rw [if_neg hold.1, any_some, if_pos (decide_eq_true hold.2)]
      exact .inr rfl
    · have hrp : (if log = [] then none else
          some (1 + (log.length - cfg.eventRetention))).any (fun m =>
            decide (c < m ∧ ¬ (c = 0 ∧ m = 1))) = false := by
        split
        · rfl
        · next hl => simpa [hl] using hold
      have hr : c = 0 ∨ log.length - cfg.eventRetention < c := by
        by_cases hl : log = []
        · rw [hl] at hc
          exact .inl (Nat.le_zero.1 hc)
        · by_contra hno
          exact hold ⟨hl, by omega, by omega⟩
      have haf : log.length - cfg.eventRetention ≤ c := by
        by_cases hl : log = []
        · simp [hl]
        · by_contra hno
          exact hold ⟨hl, by omega, by omega⟩
      rw [hrp, h.cursorState.eventStateAt_eq hc hr, h.events.events_after haf]
      exact .inl ⟨hc, rfl⟩

/-- While the call runs, the account's root is not written. -/
def OpeningStream.Undisturbed (account : String) (o : OpeningStream) : OpeningLabel → Prop
  | .server label => o.seen = [] ∨ Quiet account label
  | .statement => True

/-- The commits explain the database, and what the statements have seen is its history. -/
structure OpeningStream.Consistent (cfg : StoreConfig) (account : String) (o : OpeningStream) :
    Prop where
  explains : Explains cfg account o.store.db o.commits
  seen : (o.seen ++ [o.store.db]).Pairwise (SameRoot account)

namespace OpeningStream

variable {o o' : OpeningStream}

theorem Consistent.created : Consistent cfg account created :=
  ⟨⟨.initialized, rfl⟩, pairwise_singleton _ _⟩

/-- An undisturbed step keeps the reads consistent. -/
theorem Consistent.step {l : OpeningLabel} (hst : o.step P cfg account l = some o')
    (hok : o.Undisturbed account l) (h : Consistent cfg account o) : Consistent cfg account o' := by
  cases l with
  | statement =>
    simp only [OpeningStream.step] at hst
    split at hst
    · obtain rfl := some.inj hst
      refine ⟨h.explains, pairwise_append.2 ⟨h.seen, pairwise_singleton _ _, ?_⟩⟩
      intro s hsn db hdb
      obtain rfl := mem_singleton.1 hdb
      obtain hsn | hsn := mem_append.1 hsn
      · exact (pairwise_append.1 h.seen).2.2 s hsn _ (mem_singleton_self _)
      · exact mem_singleton.1 hsn ▸ .refl _ _
    · simp at hst
  | server l =>
    simp only [OpeningStream.step] at hst
    split at hst
    · simp at hst
    · obtain ⟨s', hs', rfl⟩ := map_eq_some_iff.1 hst
      refine ⟨h.explains.step hs', ?_⟩
      obtain hsn | hqt := hok
      · rw [hsn]
        exact pairwise_singleton _ _
      · obtain ⟨hpr, -, hl⟩ := pairwise_append.1 h.seen
        refine pairwise_append.2 ⟨hpr, pairwise_singleton _ _, ?_⟩
        intro s hsn db hdb
        obtain rfl := mem_singleton.1 hdb
        exact (hl s hsn _ (mem_singleton_self _)).trans (sameRoot_of_step hqt hs')

/-- Once the last statement has run, they have all seen the history that the commits give. -/
theorem Consistent.steady (h : Consistent cfg account o) (hrs : o.reads = some rs) :
    rs.Steady cfg account (o.commits.map RootCommit.rootHash) := by
  unfold OpeningStream.reads at hrs
  split at hrs
  · next s hsn =>
    obtain rfl := some.inj hrs
    obtain ⟨hpr, -, hl⟩ := pairwise_append.1 h.seen
    have hlg : ∀ db ∈ o.seen, Logged cfg db account (o.commits.map RootCommit.rootHash) :=
      fun db hdb => (hl db hdb _ (mem_singleton_self _)).logged_iff.1 h.explains.logged
    rw [hsn] at hpr hlg
    have hrm := (pairwise_cons.1 (pairwise_cons.1 hpr).2).1
    exact ⟨(hrm _ (by simp)).remains, hlg _ (by simp), hlg _ (by simp),
      hlg _ (by simp), hlg _ (by simp), hlg _ (by simp)⟩
  · simp at hrs

end OpeningStream

/-- In every run in which the account's root is not written between the statements of a call of
`initial_sse_events`: a committed swap raises revision and sequence by one; no two commits expected
the same root; the retained events are the last ones; and the answer of the call is the history
after its cursor, or a reset to the current root. -/
theorem root_history_linearizable (hretention : 0 < cfg.eventRetention)
    {labels : List OpeningLabel} {o : OpeningStream}
    (hrun : Run.exec (OpeningStream.step P cfg account) .created labels = some o)
    (hok : Run.Steps (OpeningStream.step P cfg account) (OpeningStream.Undisturbed account) .created
      labels) :
    let db := o.store.db
    let revision := ((db.roots.get? account).map RootRow.revision).getD 0
    let rootHash := (db.roots.get? account).map RootRow.rootHash
    let sequence := eventSequence db account
    (∀ request now free egress result db',
      compareAndSwapRoot P cfg db account request now free egress = (result, db') →
      match result with
      | .ok (.committed _) =>
        ((db'.roots.get? account).map RootRow.revision).getD 0 = revision + 1 ∧
          eventSequence db' account = sequence + 1
      | _ => db'.roots = db.roots ∧ db'.rootEvents = db.rootEvents ∧ db'.accounts = db.accounts) ∧
    (o.commits.map fun commit => (commit.expectedRevision, commit.expectedRootHash)).Nodup ∧
    (accountEvents db account).map RootEventRow.sequence =
      List.range' (sequence + 1 - min sequence cfg.eventRetention)
        (min sequence cfg.eventRetention) ∧
    ∀ reads, o.reads = some reads → reads.ensureAccountReadable account = .ok () → ∀ cursor,
      (cursor.getD sequence ≤ sequence ∧ reads.initialSseEvents account cursor =
        .ok (replayFrom account (o.commits.map RootCommit.rootHash) (cursor.getD sequence))) ∨
      reads.initialSseEvents account cursor = .ok [.reset sequence revision rootHash] := by
  have hcn := Run.exec_inv_of_steps (OpeningStream.Consistent cfg account) .step .created hrun hok
  have hl := hcn.explains.logged
  simp only [hl.revision, hl.rootHash, hl.sequence]
  refine ⟨?_, ?_, hl.sequences_accountEvents, ?_⟩
  · intro req now free egress res db' hcs
    obtain ⟨⟨mode, rfl⟩, hn⟩ | ⟨root, rfl, -, -, hl'⟩ := compareAndSwapRoot_logged hl hcs
    · split
      · next root => exact absurd rfl (hn root)
      · exact ⟨rfl, rfl, rfl⟩
    · have hln : (o.commits.map RootCommit.rootHash ++ [root.rootHash]).length =
          (o.commits.map RootCommit.rootHash).length + 1 := length_append
      exact ⟨hl'.revision.trans hln, hl'.sequence.trans hln⟩
  · have hnd : (o.commits.map RootCommit.expectedRevision).Nodup := by
      rw [hcn.explains.expected]
      exact nodup_range
    refine .of_map Prod.fst ?_
    rw [List.map_map]
    exact hnd
  · intro reads hrs hrd cursor
    exact (hcn.steady hrs).initialSseEvents_cases hretention hrd cursor

def oneEvent : StoreConfig := { StoreConfig.small with eventRetention := 1 }

def rootValue (ciphertext : String) : AcsEncryptedValue :=
  let bytes := strBytes ciphertext
  ⟨Base64.encode bytes, hexBytes (Sha256.digest bytes), []⟩

/-- Swapping the account's root, with the ciphertexts of the previous root and of the new one. -/
def swapRoot (revision : Nat) (previous : Option String) (ciphertext : String) : OpeningLabel :=
  let previousHash := previous.bind fun text =>
    ((rootValue text).authenticatedHash standardPrimitives .root acsFixedRootId).toOption
  .server (.compareAndSwapRoot "account" ⟨revision, previousHash, rootValue ciphertext⟩ 0 1 (.ok ()))

/-- An account with two roots, and a stream that is opened then. -/
def openAfterSwaps : List OpeningLabel :=
  [.server (.createAccount "account" "key" []), swapRoot 0 none "first",
    swapRoot 1 (some "first") "second"] ++ List.replicate 7 .statement

/-- The theorem at the run `openAfterSwaps`: with the second event as its cursor the stream goes on
from there. -/
theorem root_history_linearizable_openAfterSwaps :
    ∃ o reads, Run.exec (OpeningStream.step standardPrimitives oneEvent "account") .created openAfterSwaps =
        some o ∧ o.reads = some reads ∧ o.commits.length = 2 ∧
      ((2 ≤ eventSequence o.store.db "account" ∧ reads.initialSseEvents "account" (some 2) =
          .ok (replayFrom "account" (o.commits.map RootCommit.rootHash) 2)) ∨
        reads.initialSseEvents "account" (some 2) =
          .ok [.reset (eventSequence o.store.db "account")
            (((o.store.db.roots.get? "account").map RootRow.revision).getD 0)
            ((o.store.db.roots.get? "account").map RootRow.rootHash)]) := by
  have hch : (Run.exec (OpeningStream.step standardPrimitives oneEvent "account") .created
      openAfterSwaps).any (fun o => o.commits.length = 2 && o.reads.any fun reads =>
        decide (reads.ensureAccountReadable "account" = .ok ())) = true := by decide +kernel
  have hok : Run.Steps (OpeningStream.step standardPrimitives oneEvent "account")
      (fun o label => (match label with | .server _ => o.seen.isEmpty | .statement => true) = true)
      .created openAfterSwaps := by decide +kernel
  obtain ⟨o, hr, h⟩ := Run.exists_of_any hch
  simp only [Bool.and_eq_true, decide_eq_true_eq, Option.any_eq_true] at h
  obtain ⟨hcommits, reads, hrs, hrd⟩ := h
  have hun : Run.Steps (OpeningStream.step standardPrimitives oneEvent "account")
      (OpeningStream.Undisturbed "account") .created openAfterSwaps :=
    hok.mono fun o label h => by
      cases label with
      | server label => exact .inl (List.isEmpty_iff.1 h)
      | statement => trivial
  exact ⟨o, reads, hr, hrs, hcommits, (root_history_linearizable (by decide) hr
    hun).2.2.2 reads hrs hrd (some 2)⟩

/-- An account with one root, a stream that is opened then, and two more roots before the last
statement of the call. -/
def swapsDuringOpen : List OpeningLabel :=
  [.server (.createAccount "account" "key" []), swapRoot 0 none "first"] ++
    List.replicate 6 .statement ++
    [swapRoot 1 (some "first") "second", swapRoot 2 (some "second") "third", .statement]

/-- In `swapsDuringOpen` the stream goes on from the first event with the third one: the second
event was deleted before the last statement could see it. -/
theorem root_event_skipped :
    (Run.exec (OpeningStream.step standardPrimitives oneEvent "account") .created swapsDuringOpen).any (fun o =>
      let replay := replayFrom "account" (o.commits.map RootCommit.rootHash) 1
      replay.map AcsSseEvent.sequence = [1, 2, 3] && o.reads.any fun reads =>
        decide (reads.ensureAccountReadable "account" = .ok ()) &&
        ((reads.initialSseEvents "account" (some 1)).toOption.any fun events =>
          events.map AcsSseEvent.sequence = [1, 3])) = true := by
  decide +kernel

end Aerobag.Server
