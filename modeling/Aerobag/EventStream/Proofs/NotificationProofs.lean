import Aerobag.Client.Proofs.EngineProofs
import Aerobag.EventStream.Connection
import Aerobag.Server.Proofs.OpeningProofs

/-!
# A change of the root reaches the client

Every change of an account's root is on its way to a client that listens (`Coming`), or has made it
set `force_poll`, or is the root that it knows. As the filters compare event sequences, the client's
must not be ahead of the server's when it connects.
-/

open List
open Option hiding sequence

namespace Aerobag.EventStream

open Client Server Command

variable {J : Type} {P : Primitives} {cfg : StoreConfig} {account : String}

/-! ## The server's history -/

variable {db : Database} {log : List String} {client : CloudEngine J} {events : List AcsSseEvent}

def lastRoot (log : List String) : Nat × Option String := (log.length, log.getLast?)

theorem currentRoot_eq (h : Logged cfg db account log) : currentRoot db account = lastRoot log := by
  rw [currentRoot, h.revision, h.rootHash]
  rfl

def eventRoot (event : AcsSseEvent) : Nat × Option String := (event.rootRevision, event.rootHash)

/-- An event says of the last change what the history does, and nothing of changes to come. -/
def Reports (log : List String) (event : AcsSseEvent) : Prop :=
  event.sequence ≤ log.length ∧ (event.sequence = log.length → eventRoot event = lastRoot log)

theorem Reports.append {e : AcsSseEvent} (h : e.sequence ≤ log.length) (hs : String) :
    Reports (log ++ [hs]) e := by
  have hl : (log ++ [hs]).length = log.length + 1 := by simp
  refine ⟨by omega, fun heq => ?_⟩
  omega

/-- A step of the server commits one root of the account, or none. -/
theorem logged_step {s s' : Store} {l : Label} (h : Logged cfg s.db account log)
    (hkp : l ≠ .deleteAccount account) (hst : s.step P cfg l = some s') :
    (committedEvent P cfg account s l = none ∧ Logged cfg s'.db account log) ∨
    ∃ ev hs, committedEvent P cfg account s l = some ev ∧ changesRoots l = true ∧
      Logged cfg s'.db account (log ++ [hs]) ∧ ev.sequence = log.length + 1 ∧
      eventRoot ev = lastRoot (log ++ [hs]) := by
  by_cases hqt : Quiet account l
  · left
    refine ⟨?_, (sameRoot_of_step hqt hst).logged_iff.2 h⟩
    cases l with
    | compareAndSwapRoot a req now f e =>
      simp only [committedEvent]
      split
      · exact if_neg hqt
      · rfl
    | _ => rfl
  · cases l with
    | compareAndSwapRoot a req now f e =>
      obtain rfl : a = account := not_not.1 hqt
      have hdb := Store.db_compareAndSwapRoot hst
      cases hcs : compareAndSwapRoot P cfg s.db a req now f e with
      | mk res db' =>
        rw [hcs] at hdb
        simp only [committedEvent, hcs]
        obtain ⟨⟨m, hmd⟩, hn⟩ | ⟨r, rfl, -, hr, hl⟩ := compareAndSwapRoot_logged h hcs
        · left
          have hsm : SameRoot a s.db s'.db := by
            rw [hdb, hmd]
            exact .of_eq rfl rfl rfl
          refine ⟨?_, hsm.logged_iff.2 h⟩
          split
          · next r _ hrt => exact absurd (Prod.mk.inj hrt).1 (hn r)
          · rfl
        · right
          have hln : (log ++ [r.rootHash]).length = log.length + 1 := by simp
          refine ⟨_, r.rootHash, by simp only [if_pos]; rfl, rfl, hdb ▸ hl, ?_, ?_⟩
          · exact hl.sequence.trans hln
          · show (r.revision, some r.rootHash) = lastRoot (log ++ [r.rootHash])
            rw [hr, lastRoot, hln, getLast?_concat]
    | deleteAccount a =>
      obtain rfl : a = account := not_not.1 hqt
      exact absurd rfl hkp
    | _ => exact absurd trivial hqt

/-! ## The client's reports -/

/-- The client has an account, and takes reports of this stream. -/
structure Listening (streamId : Nat) (client : CloudEngine J) : Prop where
  plan : ∃ plan, client.acsEventStreamPlan = some plan ∧ plan.streamId = streamId
  acs : ∃ acs, acsOf client = some acs

/-- The client has not come to the event with this number. -/
def Before (client : CloudEngine J) (n : Nat) : Prop :=
  ∀ sequence, lastEventSequence client = some sequence → sequence < n

section Reports

variable {si : Nat} {client : CloudEngine J} (nowEpochMs : Int) (dt : Option String)

theorem Listening.report_connected (h : Listening si client) :
    Ends (reportEventStreamEvent ⟨si, .connected, dt⟩ nowEpochMs) client fun _ client' =>
      Listening si client' ∧ acsOf client' = acsOf client ∧
        client'.persistent.forcePoll = true := by
  obtain ⟨p, hp, rfl⟩ := h.plan
  simp only [reportEventStreamEvent, ends_get_bind, hp, all_some, bne_self_eq_false]
  exact ⟨⟨⟨p, hp, rfl⟩, h.acs⟩, rfl, rfl⟩

/-- A message that is not new to the client is ignored. From another one the client takes the
sequence, and it polls if it is told to or is named another root than the one it knows. -/
theorem Listening.report_message (h : Listening si client) (m : AcsSseEvent) :
    Ends (reportEventStreamEvent ⟨si, .message (some (.ok m)), dt⟩ nowEpochMs) client
      fun _ client' =>
        (client' = client ∧ ¬ Before client m.sequence) ∨
        (Before client m.sequence ∧ Listening si client' ∧
          lastEventSequence client' = some m.sequence ∧ storedRoot client' = storedRoot client ∧
          (forceRead m = true ∨ storedRoot client ≠ some (eventRoot m) →
            client'.persistent.forcePoll = true)) := by
  obtain ⟨p, hp, rfl⟩ := h.plan
  obtain ⟨acs, hac⟩ := h.acs
  obtain ⟨l, ha, hln⟩ := bind_eq_some_iff.1 hac
  have hl : lastEventSequence client = acs.lastEventSequence := by
    rw [lastEventSequence, hac, bind_some]
  have hso : storedRoot client = some (acs.rootRevision, acs.rootHash) := by
    rw [storedRoot, hac, map_some]
  have hfd : client.acs "Aerobag Cloud configuration is missing" = .ok acs :=
    CloudEngine.acs_eq_ok.2 ⟨l, ha, hln⟩
  have hbf : Before client m.sequence ↔
      ¬ acs.lastEventSequence.any (fun sq => decide (m.sequence ≤ sq)) = true := by
    rw [Before, hl, Option.any_eq_true]
    simp [decide_eq_true_eq, not_exists, not_and, not_le]
  simp only [reportEventStreamEvent, ends_get_bind, hp, all_some, bne_self_eq_false,
    Bool.false_eq_true, if_false, receiveMessage]
  refine ends_attempt_bind.2 ⟨fun acs' hac' => ?_, fun e he => ?_⟩
  · obtain rfl : acs = acs' := Except.ok.inj (hfd.symm.trans hac')
    split
    · next hol => exact .inl ⟨rfl, fun hn => hbf.1 hn hol⟩
    · next hn =>
      have hls : client.account = .ok l := CloudEngine.account_eq_ok.2 ha
      simp only [updateAcs, ends_bind, ends_get, hls, hfd]
      refine .inr ⟨hbf.2 hn, ⟨⟨p, hp, rfl⟩, _, rfl⟩, rfl, ?_, ?_⟩
      · rw [hso]
        rfl
      · rw [hso]
        intro hfr
        rcases hfr with hrd | ho
        · simp [hrd]
        · simp only [Bool.or_eq_true, bne_iff_ne, Bool.or_assoc]
          right
          right
          by_contra hsm
          rw [not_or, not_not, not_not] at hsm
          exact ho (by rw [eventRoot, hsm.1, hsm.2])
  · rw [hfd] at he
    simp at he

end Reports

/-! ## The initial events -/

/-- What a statement of `initial_sse_events` has seen lies between the client's sequence and the
history. -/
structure Seen (account : String) (client : CloudEngine J) (log : List String) (db : Database) :
    Prop where
  cursor : ∀ sequence, lastEventSequence client = some sequence →
    sequence ≤ eventSequence db account
  sequence : eventSequence db account ≤ log.length
  events : ∀ event ∈ db.rootEvents.rows, event.accountLocator = account →
    event.sequence ≤ log.length

theorem Seen.of_logged (h : Logged cfg db account log)
    (hcr : ∀ sequence, lastEventSequence client = some sequence → sequence ≤ log.length) :
    Seen account client log db where
  cursor := by
    rw [h.sequence]
    exact hcr
  sequence := h.sequence.le
  events event hm ha := (mem_logEvents ((h.events event).1 ⟨hm, ha⟩).1).2

theorem Seen.append (h : Seen account client log db) (hs : String) :
    Seen account client (log ++ [hs]) db := by
  have hl : (log ++ [hs]).length = log.length + 1 := by simp
  refine ⟨h.cursor, ?_, fun ev hm ha => ?_⟩
  · have := h.sequence
    omega
  · have := h.events ev hm ha
    omega

theorem mem_of_reads {st : Store} {s : List Database} {rs : InitialReads}
    (h : OpeningStream.reads ⟨st, [], s⟩ = some rs) : rs.sequence ∈ s ∧ rs.events ∈ s := by
  unfold OpeningStream.reads at h
  split at h
  · next hsn =>
    obtain rfl := some.inj h
    obtain rfl := hsn
    simp
  · simp at h

/-- The first events of a stream, when other steps come between the statements that read them. -/
theorem initialSseEvents_bounds {rds : InitialReads} (hsq : Seen account client log rds.sequence)
    (hes : Seen account client log rds.events)
    (h : rds.initialSseEvents account (lastEventSequence client) = .ok events) :
    (∀ ev ∈ events, ev.sequence ≤ log.length) ∧ ∀ sq, lastEventSequence client = some sq →
        ∃ ev ∈ events, sq ≤ ev.sequence := by
  obtain ⟨_, -, h⟩ := Except.bind_eq_ok.1 h
  obtain ⟨⟨cu, r, hs⟩, hst, h⟩ := Except.bind_eq_ok.1 h
  obtain rfl : cu = eventSequence rds.sequence account := by
    unfold currentEventState at hst
    split at hst
    · simp at hst
    · next f hfd =>
      rw [eventSequence, hfd]
      exact (Prod.mk.inj (Except.ok.inj hst)).1.symm
  have hup := hsq.sequence
  have hlw := hsq.cursor
  cases hcr : lastEventSequence client with
  | none =>
    rw [hcr] at h
    obtain rfl := Except.ok.inj h
    simpa [AcsSseEvent.sequence] using hup
  | some cursor =>
    rw [hcr] at h
    have hle : cursor ≤ eventSequence rds.sequence account := hlw cursor hcr
    have hrs : ∀ {ev : AcsSseEvent}, ev.sequence = eventSequence rds.sequence account →
        events = [ev] → (∀ ev ∈ events, ev.sequence ≤ log.length) ∧
          ∀ sq, some cursor = some sq → ∃ ev ∈ events, sq ≤ ev.sequence := by
      rintro ev hev rfl
      refine ⟨by simpa [hev] using hup, ?_⟩
      rintro sq ⟨⟩
      exact ⟨ev, by simp, by omega⟩
    simp only at h
    split at h
    · exact hrs rfl (Except.ok.inj h).symm
    · split at h
      · exact hrs rfl (Except.ok.inj h).symm
      · obtain ⟨⟨r', has'⟩, -, h⟩ := Except.bind_eq_ok.1 h
        obtain rfl := Except.ok.inj h
        refine ⟨fun ev hm => ?_, ?_⟩
        · rcases mem_cons.1 hm with rfl | hm
          · exact hle.trans hup
          · obtain ⟨row, hr, rfl⟩ := List.mem_map.1 hm
            have hrw' := mem_of_mem_filter hr
            rw [accountEvents, mem_insertionSort, mem_filter, decide_eq_true_eq] at hrw'
            exact hes.events row hrw'.1 hrw'.2
        · rintro sq ⟨⟩
          exact ⟨_, mem_cons_self, le_rfl⟩

theorem foldl_sequence_le {l b : Nat} (hl : l ≤ b) (h : ∀ ev ∈ events, ev.sequence ≤ b) :
    events.foldl (fun l ev => max l ev.sequence) l ≤ b := by
  induction events generalizing l with
  | nil => exact hl
  | cons ev events ih =>
    have hev := h ev mem_cons_self
    exact ih (max_le hl hev) fun o ho => h o (mem_cons_of_mem _ ho)

theorem le_foldl_sequence {l : Nat} :
    l ≤ events.foldl (fun l e => max l e.sequence) l ∧ ∀ e ∈ events,
        e.sequence ≤ events.foldl (fun l e => max l e.sequence) l := by
  induction events generalizing l with
  | nil => simp
  | cons e events ih =>
    obtain ⟨hle, hal⟩ := @ih (max l e.sequence)
    refine ⟨(le_max_left _ _).trans hle, fun o ho => ?_⟩
    rcases mem_cons.1 ho with rfl | ho
    · exact (le_max_right _ _).trans hle
    · exact hal o ho

/-! ## The invariant -/

/-- What the invariant is about: the connection without the server and the phase. -/
structure View (J : Type) where
  unsent : Option AcsSseEvent
  queue : List AcsSseEvent
  wire : List CloudEventStreamEventKind
  client : CloudEngine J
  answer : Option (Nat × Option String)
  polled : Bool

def Connection.view (c : Connection J) : View J where
  unsent := c.unsent
  queue := c.queue
  wire := c.wire
  client := c.client
  answer := c.answer
  polled := c.polled

/-- The client has been told to poll since the last change, or is about to be: it polls at the start
of a connection. -/
def Told (v : View J) : Prop := .connected ∈ v.wire ∨ v.polled = true

/-- A heartbeat that will carry the news: it follows a lag and has yet to read the sequence, or it has
read the last one. -/
def Beat.Carries (account : String) (log : List String) (beat : Beat) : Prop :=
  (beat.reset = true ∧ beat.sequence = none) ∨
    ∃ db, beat.sequence = some db ∧ eventSequence db account = log.length

/-- News of the last root is on its way to the client. -/
inductive Coming (account : String) (log : List String) (last : Nat) (beat : Option Beat)
    (v : View J) : Prop where
  | told (h : Told v)
  | unsent {event} (hlast : last < log.length) (h : v.unsent = some event)
  | queued {event} (hlast : last < log.length) (h : event ∈ v.queue)
      (hsequence : event.sequence = log.length)
  | beat {b} (hlast : last < log.length) (h : beat = some b) (hcarries : b.Carries account log)
  | wired {event} (h : .message (some (.ok event)) ∈ v.wire) (hsequence : event.sequence = log.length)
      (hbefore : Before v.client log.length)

/-- While events are streamed, news is on its way or the client has the last root. -/
structure Streaming (account : String) (log : List String) (last : Nat) (beat : Option Beat)
    (v : View J) : Prop where
  bound : last ≤ log.length
  client : ∀ sequence, lastEventSequence v.client = some sequence → sequence ≤ last
  queue : ∀ event ∈ v.queue, Reports log event
  wire : ∀ kind ∈ v.wire, kind = .connected ∨ ∃ event, kind = .message (some (.ok event)) ∧
    event.sequence ≤ last ∧
      (event.sequence = log.length → eventRoot event = lastRoot log ∨ Told v)
  heartbeat : ∀ b db, beat = some b → b.sequence = some db →
    last ≤ eventSequence db account ∧ eventSequence db account ≤ log.length
  news : Coming account log last beat v ∨ storedRoot v.client = some (lastRoot log)
  answer : ∀ root, v.answer = some root → Coming account log last beat v ∨ root = lastRoot log

/-- What holds in each phase. -/
def PhaseInv (account : String) (log : List String) (v : View J) : Phase → Prop
  | .idle => v.queue = [] ∧ v.wire = [] ∧ v.answer = none
  | .opening seen => v.wire = [] ∧
      (∀ sequence, lastEventSequence v.client = some sequence → sequence ≤ log.length) ∧
      (∀ event ∈ v.queue, Reports log event) ∧ ∀ db ∈ seen, Seen account v.client log db
  | .streaming last beat => Streaming account log last beat v

/-- A root that is on its way to the client is not the last one only if the client does not know the
last one either: the client waits for one answer at a time. -/
def Answered (log : List String) (v : View J) : Prop :=
  ∀ root, v.answer = some root → root.1 ≤ log.length ∧
    (∀ stored, storedRoot v.client = some stored → stored.1 ≤ log.length) ∧
    (root ≠ lastRoot log → storedRoot v.client ≠ some (lastRoot log))

/-- The invariant of a connection; the log has the hashes of all roots of the account. -/
structure Inv (cfg : StoreConfig) (account : String) (log : List String) (c : Connection J) :
    Prop where
  listening : Listening c.streamId c.client
  logged : Logged cfg c.store.db account log
  unsent : ∀ event, c.unsent = some event →
    event.sequence = log.length ∧ eventRoot event = lastRoot log
  answer : Answered log c.view
  phase : PhaseInv account log c.view c.phase

/-- The conditions on a run: the client's event sequence is not ahead of the server's when it
connects; the account is not deleted while it is connected; and when the server answers the client,
the client's revision is not ahead of the server's. -/
def Follows (account : String) (c : Connection J) : ConnectionLabel → Prop
  | .server label => label = .deleteAccount account → c.phase = .idle
  | .subscribe => ∀ sequence, lastEventSequence c.client = some sequence →
      sequence ≤ eventSequence c.store.db account
  | .serve => ∀ stored, storedRoot c.client = some stored →
      stored.1 ≤ (currentRoot c.store.db account).1
  | _ => True

section Steps

variable {log : List String} {c c' : Connection J} {v : View J} {last si : Nat} {beat : Option Beat}
  {client : CloudEngine J} {wire : List CloudEventStreamEventKind} {polled : Bool}
  {queue : List AcsSseEvent} {nowEpochMs : Int} {ms : AcsSseEvent}

/-! ### What is on its way -/

theorem lastRoot_append_ne {r : Nat × Option String} (h : r.1 ≤ log.length) (hs : String) :
    r ≠ lastRoot (log ++ [hs]) := by
  rintro rfl
  simp [lastRoot] at h

theorem Coming.congr {v' : View J} (h : Coming account log last beat v)
    (hun : v'.unsent = v.unsent) (hqu : v'.queue = v.queue) (hwi : v'.wire = v.wire)
    (hcl : lastEventSequence v'.client = lastEventSequence v.client)
    (hpl : v'.polled = v.polled) : Coming account log last beat v' := by
  cases h with
  | told h =>
    refine .told ?_
    unfold Told at h ⊢
    rwa [hwi, hpl]
  | unsent hl h => exact .unsent hl (hun.trans h)
  | queued hl h hsq => exact .queued hl (hqu ▸ h) hsq
  | beat hl h hcr => exact .beat hl h hcr
  | wired h hsq hbf => exact .wired (hwi ▸ h) hsq fun sq hl => hbf sq (hcl ▸ hl)

/-- After a change everything that is on its way is old, and the event of the change comes last. -/
theorem PhaseInv.change {p : Phase} (h : PhaseInv account log v p) (e : AcsSseEvent) (hs : String) :
    PhaseInv account (log ++ [hs]) { v with unsent := some e, polled := false } p := by
  have hl : (log ++ [hs]).length = log.length + 1 := by simp
  cases p with
  | idle => exact h
  | opening s =>
    obtain ⟨hwi, hcr, hqu, hsn⟩ := h
    refine ⟨hwi, fun sq hsq => ?_, fun e hev => ?_, fun db hdb => ?_⟩
    · have := hcr sq hsq
      omega
    · exact .append (hqu e hev).1 hs
    · exact (hsn db hdb).append hs
  | streaming l bt =>
    have hbd := h.bound
    have hcm : Coming account (log ++ [hs]) l bt
        { v with unsent := some e, polled := false } := .unsent (by omega) rfl
    refine ⟨by omega, h.client, fun e hev => .append (h.queue e hev).1 hs,
      fun k hkd => ?_, fun b db hbt hdb => ?_, .inl hcm, fun _ _ => .inl hcm⟩
    · rcases h.wire k hkd with rfl | ⟨e, rfl, hle, -⟩
      · exact .inl rfl
      · exact .inr ⟨e, rfl, hle, fun heq => by omega⟩
    · have := h.heartbeat b db hbt hdb
      omega

/-- A step of the server with the event that it leaves to be broadcast. -/
theorem serverStep_cases {l : Label} (hst : c.serverStep P cfg account l = some c') :
    (changesRoots l = true → c.unsent = none) ∧ ∃ s, c.store.step P cfg l = some s ∧
      ((c.phase = .idle ∧ c' = { c with store := s, unsent := none }) ∨
        (committedEvent P cfg account c.store l = none ∧ c' = { c with store := s }) ∨
        ∃ e, committedEvent P cfg account c.store l = some e ∧
          c' = { c with store := s, unsent := some e, polled := false }) := by
  unfold Connection.serverStep at hst
  split at hst
  · simp at hst
  next hlc =>
  obtain ⟨s, hsr, hst⟩ := bind_eq_some_iff.1 hst
  refine ⟨fun hch => by simpa [hch] using hlc, s, hsr, ?_⟩
  split at hst
  · split at hst
    · next e hev => exact .inr (.inr ⟨e, hev, (some.inj hst).symm⟩)
    · next hn => exact .inr (.inl ⟨hn, (some.inj hst).symm⟩)
  · split at hst
    · next hid => exact .inl ⟨hid, (some.inj hst).symm⟩
    · simp at hst

theorem Answered.change (h : Answered log v) (hs : String) : Answered (log ++ [hs]) v := by
  have hl : (log ++ [hs]).length = log.length + 1 := by simp
  intro r han
  obtain ⟨hr, hso, -⟩ := h r han
  refine ⟨by omega, fun st hrt => ?_, fun _ hkn => ?_⟩
  · have := hso st hrt
    omega
  · exact lastRoot_append_ne (hso _ hkn) hs rfl

theorem Answered.withClient (h : Answered log v) (hso : storedRoot client = storedRoot v.client) :
    Answered log { v with wire := wire, client := client, polled := polled } := by
  intro r hrt
  obtain ⟨hr, hrv, hkn⟩ := h r hrt
  refine ⟨hr, ?_, ?_⟩
  · rw [hso]
    exact hrv
  · rw [hso]
    exact hkn

/-- An event is sent: it carries the news if it belongs to the last change, and otherwise they are
still to come. -/
theorem Streaming.send (h : Streaming account log last beat v) {ev : AcsSseEvent}
    (hle : last ≤ ev.sequence) (hrp : Reports log ev)
    (hbt : ∀ b, beat = some b → b.Carries account log → ev.sequence = log.length)
    (hqu : ∀ o ∈ queue, o ∈ v.queue)
    (hkp : ∀ o ∈ v.queue, o.sequence = log.length → o ∈ queue ∨ ev.sequence = log.length) :
    Streaming account log ev.sequence none
      { v with queue := queue, wire := v.wire ++ [.message (some (.ok ev))] } := by
  have htl : Told v → Told
      { v with queue := queue, wire := v.wire ++ [.message (some (.ok ev))] } :=
    fun htl => htl.imp_left (mem_append_left _)
  have hbd := hrp.1
  have hcm : Coming account log last beat v → Coming account log ev.sequence none
      { v with queue := queue, wire := v.wire ++ [.message (some (.ok ev))] } := by
    intro hcm
    have hnw : last < log.length → ev.sequence = log.length → Coming account log ev.sequence none
          { v with queue := queue, wire := v.wire ++ [.message (some (.ok ev))] } := by
      intro hl hsq
      refine .wired (mem_append_right _ (mem_singleton.2 rfl)) hsq ?_
      intro sq hcl
      have := h.client sq hcl
      omega
    cases hcm with
    | told h => exact .told (htl h)
    | unsent hl h =>
      by_cases hsq : ev.sequence = log.length
      · exact hnw hl hsq
      · exact .unsent (by omega) h
    | queued hl h ho =>
      by_cases hsq : ev.sequence = log.length
      · exact hnw hl hsq
      · exact .queued (by omega) ((hkp _ h ho).resolve_right hsq) ho
    | beat hl h hcr => exact hnw hl (hbt _ h hcr)
    | wired h hsq hbf => exact .wired (mem_append_left _ h) hsq hbf
  refine ⟨hbd, fun sq hcl => (h.client sq hcl).trans hle,
    fun o ho => h.queue o (hqu o ho), fun k hkd => ?_, by simp,
    h.news.imp_left hcm, fun r hrt => (h.answer r hrt).imp_left hcm⟩
  rcases mem_append.1 hkd with hkd | hkd
  · rcases h.wire k hkd with rfl | ⟨o, rfl, ho, hrt⟩
    · exact .inl rfl
    · exact .inr ⟨o, rfl, ho.trans hle, fun heq => (hrt heq).imp_right htl⟩
  · obtain rfl := mem_singleton.1 hkd
    exact .inr ⟨ev, rfl, le_rfl, fun heq => .inl (hrp.2 heq)⟩

theorem Streaming.withBeat (h : Streaming account log last beat v) {b' : Option Beat}
    (hqu : ∀ o ∈ queue, o ∈ v.queue)
    (hqd : ∀ ev ∈ v.queue, last < log.length → ev.sequence = log.length →
      Coming account log last b' { v with queue := queue })
    (hbe : ∀ b, beat = some b → last < log.length →
      Coming account log last b' { v with queue := queue })
    (hbt : ∀ b db, b' = some b → b.sequence = some db →
      last ≤ eventSequence db account ∧ eventSequence db account ≤ log.length) :
    Streaming account log last b' { v with queue := queue } := by
  have hcm : Coming account log last beat v →
      Coming account log last b' { v with queue := queue } := by
    intro hcm
    cases hcm with
    | told h => exact .told h
    | unsent hl h => exact .unsent hl h
    | queued hl h hsq => exact hqd _ h hl hsq
    | beat hl h _ => exact hbe _ h hl
    | wired h hsq hbf => exact .wired h hsq hbf
  exact ⟨h.bound, h.client, fun o ho => h.queue o (hqu o ho), h.wire, hbt,
    h.news.imp_left hcm, fun r hrt => (h.answer r hrt).imp_left hcm⟩

theorem heartbeatEvent_eq_ok {sq r : Database} {ev : AcsSseEvent}
    (h : heartbeatEvent sq r account = .ok ev) :
    ev = .heartbeat (eventSequence sq account) (currentRoot r account).1
      (currentRoot r account).2 := by
  obtain ⟨s, hst, hev⟩ := Except.bind_eq_ok.1 h
  unfold currentEventState at hst
  split at hst
  · simp at hst
  · next f hfd =>
    obtain rfl := Except.ok.inj hst
    rw [← Except.ok.inj hev, eventSequence, hfd]
    rfl

theorem forcesPoll_connected (h : Listening c.streamId c.client) (now : Int) :
    forcesPoll ⟨c.streamId, .connected, none⟩ now c.client = true := by
  have h' : Listening c.streamId { c.client with persistent.forcePoll := false } := ⟨h.plan, h.acs⟩
  exact (ends_iff.1 (h'.report_connected now none)).2.2

/-- A message that is new makes the client poll, unless it has the root of the message. -/
theorem forcesPoll_message (h : Listening c.streamId c.client) (hn : Before c.client ms.sequence)
    (hfr : forceRead ms = true ∨ storedRoot c.client ≠ some (eventRoot ms)) :
    forcesPoll ⟨c.streamId, .message (some (.ok ms)), none⟩ nowEpochMs c.client = true := by
  have h' : Listening c.streamId { c.client with persistent.forcePoll := false } := ⟨h.plan, h.acs⟩
  rcases ends_iff.1 (h'.report_message nowEpochMs none ms) with ⟨-, hl⟩ | ⟨-, -, -, -, hpl⟩
  · exact absurd hn hl
  · exact hpl hfr

theorem report_eq_some (hst : c.report nowEpochMs = some c') : ∃ k w, c.wire = k :: w ∧ c' = { c with
        wire := w
        client := Command.final (reportEventStreamEvent ⟨c.streamId, k, none⟩ nowEpochMs) c.client
        polled := c.polled || forcesPoll ⟨c.streamId, k, none⟩ nowEpochMs c.client } := by
  unfold Connection.report at hst
  split at hst
  · simp at hst
  · next k w hwi => exact ⟨k, w, hwi, (some.inj hst).symm⟩

theorem Streaming.reportConnected (h : Streaming account log last beat v)
    (hwi : v.wire = .connected :: wire) (hcl : acsOf client = acsOf v.client) :
    Streaming account log last beat { v with wire := wire, client := client, polled := true } := by
  have hl : lastEventSequence client = lastEventSequence v.client := by
    rw [lastEventSequence, hcl, lastEventSequence]
  have htl : Told { v with wire := wire, client := client, polled := true } := .inr rfl
  refine ⟨h.bound, fun sq hsq => h.client sq (hl ▸ hsq), h.queue,
    fun k hkd => ?_, h.heartbeat, .inl (.told htl), fun _ _ => .inl (.told htl)⟩
  rcases h.wire k (hwi ▸ mem_cons_of_mem _ hkd) with rfl | ⟨ev, rfl, hle, -⟩
  · exact .inl rfl
  · exact .inr ⟨ev, rfl, hle, fun _ => .inr htl⟩

theorem Told.report (h : Told v) (hwi : v.wire = .message (some (.ok ms)) :: wire)
    (hpl : v.polled = true → polled = true) : Told { v with wire, client, polled } := by
  rcases h with hcn | hst
  · rw [hwi, mem_cons] at hcn
    exact .inl (hcn.resolve_left (by simp))
  · exact .inr (hpl hst)

theorem Coming.report (h : Coming account log last beat v)
    (hwi : v.wire = .message (some (.ok ms)) :: wire) (hpl : v.polled = true → polled = true)
    (hno : ms.sequence = log.length → ¬ Before v.client log.length)
    (hbf : Before v.client log.length → Before client log.length) :
    Coming account log last beat { v with wire, client, polled } := by
  cases h with
  | told h => exact .told (h.report hwi hpl)
  | unsent hl h => exact .unsent hl h
  | queued hl h hsq => exact .queued hl h hsq
  | beat hl h hcr => exact .beat hl h hcr
  | wired h hsq hb =>
    rw [hwi, mem_cons] at h
    rcases h with heq | h
    · obtain rfl : _ = ms := by simpa using heq
      exact absurd hb (hno hsq)
    · exact .wired h hsq (hbf hb)

/-- A message is reported to the client. -/
theorem Streaming.report (h : Streaming account log last beat v)
    (hwi : v.wire = .message (some (.ok ms)) :: wire) (hpl : v.polled = true → polled = true)
    (hcl : ∀ n, lastEventSequence client = some n → n ≤ last)
    (hnw : Coming account log last beat { v with wire, client, polled } ∨
      storedRoot client = some (lastRoot log))
    (han : ∀ r, v.answer = some r →
      Coming account log last beat { v with wire, client, polled } ∨ r = lastRoot log) :
    Streaming account log last beat { v with wire, client, polled } := by
  refine ⟨h.bound, hcl, h.queue, fun k hkd => ?_, h.heartbeat, hnw, han⟩
  rcases h.wire k (hwi ▸ mem_cons_of_mem _ hkd) with rfl | ⟨e, rfl, hle, hrt⟩
  · exact .inl rfl
  · exact .inr ⟨e, rfl, hle, fun heq => (hrt heq).imp_right (·.report hwi hpl)⟩

/-- A message that the client has seen before is reported again. -/
theorem Streaming.reportOld (h : Streaming account log last beat v)
    (hwi : v.wire = .message (some (.ok ms)) :: wire)
    (hpl : v.polled = true → polled = true) (hl : ¬ Before v.client ms.sequence) :
    Streaming account log last beat { v with wire, polled } := by
  have hcm : Coming account log last beat v → Coming account log last beat { v with wire, polled } :=
    fun hcm => hcm.report hwi hpl (fun hsq => hsq ▸ hl) id
  exact h.report hwi hpl h.client (h.news.imp_left hcm) fun r hrt => (h.answer r hrt).imp_left hcm

/-- A message that the client takes: if it is the news of the last change, the client polls or knows
the root. -/
theorem Streaming.reportNew (h : Streaming account log last beat v) (han : Answered log v)
    (hwi : v.wire = .message (some (.ok ms)) :: wire) (hpl : v.polled = true → polled = true)
    (hl : lastEventSequence client = some ms.sequence)
    (hso : storedRoot client = storedRoot v.client)
    (hpo : storedRoot v.client ≠ some (eventRoot ms) → polled = true) :
    Streaming account log last beat { v with wire, client, polled } := by
  obtain ⟨hms, hnm⟩ : ms.sequence ≤ last ∧ (ms.sequence = log.length →
      eventRoot ms = lastRoot log ∨ Told v) := by
    rcases h.wire _ (hwi ▸ mem_cons_self) with heq | ⟨e, heq, hle, hrt⟩
    · simp at heq
    · obtain rfl : ms = e := by simpa using heq
      exact ⟨hle, hrt⟩
  have hbd := h.bound
  have hcl : ∀ n, lastEventSequence client = some n → n = ms.sequence :=
    fun n hcl => some.inj (hcl.symm.trans hl)
  have hcm : Coming account log last beat v ∨ storedRoot v.client = some (lastRoot log) →
      Coming account log last beat { v with wire, client, polled } ∨
        storedRoot v.client = some (lastRoot log) := by
    intro hnw
    by_cases hsq : ms.sequence = log.length
    · by_cases hkn : storedRoot v.client = some (lastRoot log)
      · exact .inr hkn
      · rcases hnm hsq with hrt | h
        · exact .inl (.told (.inr (hpo (hrt ▸ hkn))))
        · exact .inl (.told (h.report hwi hpl))
    · refine hnw.imp_left fun hcm => hcm.report hwi hpl (absurd · hsq) fun _ n hst => ?_
      have := hcl n hst
      omega
  refine h.report hwi hpl (fun n hst => hcl n hst ▸ hms) (hso ▸ hcm h.news) fun r hrt => ?_
  by_cases hcu : r = lastRoot log
  · exact .inr hcu
  · have hun := (han r hrt).2.2 hcu
    have hnw := (h.answer r hrt).resolve_right hcu
    exact .inl ((hcm (.inl hnw)).resolve_right hun)

theorem PhaseInv.withAnswer {p : Phase} {a : Option (Nat × Option String)}
    (h : PhaseInv account log v p) (hid : p = .idle → a = none)
    (han : ∀ r, a = some r → r = lastRoot log) : PhaseInv account log { v with answer := a } p := by
  cases p with
  | idle => exact ⟨h.1, h.2.1, hid rfl⟩
  | opening s => exact h
  | streaming l b =>
    exact ⟨h.bound, h.client, h.queue, h.wire, h.heartbeat,
      h.news.imp_left fun hcm => hcm.congr rfl rfl rfl rfl rfl, fun r hrt => .inr (han r hrt)⟩

theorem Listening.adoptRoot (h : Listening si client) (r : Nat × Option String)
    (fp : Bool) : Listening si (adoptRoot client r fp) ∧
      lastEventSequence (adoptRoot client r fp) = lastEventSequence client ∧
      storedRoot (adoptRoot client r fp) = some r := by
  obtain ⟨acs, hac⟩ := h.acs
  obtain ⟨l, ha, hln⟩ := bind_eq_some_iff.1 hac
  have hac' : acsOf (EventStream.adoptRoot client r fp) =
      some { acs with rootRevision := r.1, rootHash := r.2 } := by
    simp [acsOf, EventStream.adoptRoot, ha, hln]
  refine ⟨⟨h.plan, _, hac'⟩, ?_, ?_⟩
  · simp [lastEventSequence, hac, hac']
  · simp [storedRoot, hac']

/-! ### The steps -/

namespace Inv

variable (h : Inv cfg account log c)
include h

theorem phase_eq {p : Phase} (hph : c.phase = p) : PhaseInv account log c.view p := hph ▸ h.phase

theorem of_idle {log' : List String} (hid : c.phase = .idle)
    {s : Store} (hl : Logged cfg s.db account log') :
    Inv cfg account log' { c with store := s, unsent := none } := by
  obtain ⟨hqu, hwi, han⟩ := h.phase_eq hid
  refine ⟨h.listening, hl, by simp, fun r hrt => ?_, ?_⟩
  · have hn : none = some r := han.symm.trans hrt
    simp at hn
  · rw [hid]
    exact ⟨hqu, hwi, han⟩

theorem withPhase {p : Phase} (hph : PhaseInv account log { c.view with queue, wire } p) :
    Inv cfg account log { c with phase := p, queue, wire } :=
  ⟨h.listening, h.logged, h.unsent, h.answer, hph⟩

theorem server {l : Label} (hok : Follows account c (.server l))
    (hst : c.serverStep P cfg account l = some c') : ∃ log', Inv cfg account log' c' := by
  obtain ⟨hlc, s, hsr, hcs⟩ := serverStep_cases hst
  by_cases hdl : l = .deleteAccount account
  · -- Before the connection the account may be deleted, and starts again without a history.
    subst hdl
    have hl : Logged cfg s.db account [] := by
      cases Store.effect_of_step hsr
      exact .deleteAccount _
    have hin := h.of_idle (hok rfl) hl
    rcases hcs with ⟨-, rfl⟩ | ⟨-, rfl⟩ | ⟨ev, hev, -⟩
    · exact ⟨[], hin⟩
    · rw [← hlc rfl] at hin
      exact ⟨[], hin⟩
    · simp [committedEvent] at hev
  · rcases logged_step h.logged hdl hsr with ⟨hn, hl⟩ | ⟨ev, hs, hev, -, hl, hsq, hrt⟩
    · rcases hcs with ⟨hid, rfl⟩ | ⟨-, rfl⟩ | ⟨ev, hev, -⟩
      · exact ⟨log, h.of_idle hid hl⟩
      · exact ⟨log, h.listening, hl, h.unsent, h.answer, h.phase⟩
      · simp [hn] at hev
    · rcases hcs with ⟨hid, rfl⟩ | ⟨hn, -⟩ | ⟨ev', hev', rfl⟩
      · exact ⟨log ++ [hs], h.of_idle hid hl⟩
      · simp [hn] at hev
      · obtain rfl : ev = ev' := some.inj (hev.symm.trans hev')
        refine ⟨log ++ [hs], h.listening, hl, ?_, h.answer.change hs, h.phase.change ev hs⟩
        rintro _ ⟨⟩
        exact ⟨by simpa using hsq, hrt⟩

theorem broadcast (hst : c.step P cfg account .broadcast = some c') : Inv cfg account log c' := by
  simp only [Connection.step] at hst
  split at hst
  · simp at hst
  · obtain rfl := some.inj hst
    next hid =>
    exact h.of_idle hid h.logged
  · next e hun hbs =>
    obtain rfl := some.inj hst
    obtain ⟨hsq, hrt⟩ := h.unsent e hun
    have hrp : Reports log e := ⟨hsq.le, fun _ => hrt⟩
    have hqu : (∀ e ∈ c.queue, Reports log e) → ∀ e' ∈ c.queue ++ [e], Reports log e' := by
      intro hol e' hm
      rcases mem_append.1 hm with hm | hm
      · exact hol e' hm
      · obtain rfl := mem_singleton.1 hm
        exact hrp
    refine ⟨h.listening, h.logged, by simp, h.answer, ?_⟩
    cases hph' : c.phase with
    | idle => exact absurd hph' hbs
    | opening s =>
      obtain ⟨hwi, hcr, hol, hsn⟩ := h.phase_eq hph'
      exact ⟨hwi, hcr, hqu hol, hsn⟩
    | streaming l b =>
      have hph := h.phase_eq hph'
      have hcm : Coming account log l b c.view → Coming account log l b
          { c.view with unsent := none, queue := c.queue ++ [e] } := by
        intro hcm
        cases hcm with
        | told h => exact .told h
        | unsent hl _ => exact .queued hl (by simp) hsq
        | queued hl h hsq => exact .queued hl (by simp [show _ ∈ c.queue from h]) hsq
        | beat hl h hca => exact .beat hl h hca
        | wired h hsq hbf => exact .wired h hsq hbf
      exact ⟨hph.bound, hph.client, hqu hph.queue, hph.wire, hph.heartbeat,
        hph.news.imp_left hcm, fun r hrt => (hph.answer r hrt).imp_left hcm⟩

theorem subscribe (hok : Follows account c .subscribe)
    (hst : c.step P cfg account .subscribe = some c') : Inv cfg account log c' := by
  simp only [Connection.step] at hst
  split at hst
  · next hid =>
    split at hst
    · obtain rfl := some.inj hst
      obtain ⟨hqu, hwi, -⟩ := h.phase_eq hid
      refine h.withPhase ⟨hwi, fun sq hsq => ?_, ?_, by simp⟩
      · rw [← h.logged.sequence]
        exact hok sq hsq
      · have hem : c.queue = [] := hqu
        simp [hem]
    · simp at hst
  · simp at hst

theorem statement (hst : c.step P cfg account .statement = some c') : Inv cfg account log c' := by
  simp only [Connection.step] at hst
  split at hst
  · next s hop =>
    obtain rfl := some.inj hst
    obtain ⟨hwi, hcr, hqu, hsn⟩ := h.phase_eq hop
    refine h.withPhase ⟨hwi, hcr, hqu, fun db hdb => ?_⟩
    rcases mem_append.1 hdb with hdb | hdb
    · exact hsn db hdb
    · obtain rfl := mem_singleton.1 hdb
      exact .of_logged h.logged hcr
  · simp at hst

/-- The headers of the response are the news of every change before it. -/
theorem respond (hst : c.step P cfg account .respond = some c') : Inv cfg account log c' := by
  simp only [Connection.step] at hst
  split at hst
  · next s hop =>
    obtain ⟨-, hcr, hqu, hsn⟩ := h.phase_eq hop
    obtain ⟨rds, hrs, hst⟩ := bind_eq_some_iff.1 hst
    obtain ⟨hsq, hes⟩ := mem_of_reads hrs
    split at hst
    · simp at hst
    · next es hin =>
      obtain rfl := some.inj hst
      obtain ⟨hup, hlw⟩ := initialSseEvents_bounds (hsn _ hsq) (hsn _ hes) hin
      have htl : Told { c.view with
          wire := .connected :: es.map fun ev => .message (some (.ok ev)) } :=
        .inl mem_cons_self
      refine h.withPhase ⟨foldl_sequence_le (Nat.zero_le _) hup, fun sq hsq => ?_,
        hqu, fun k hkd => ?_, by simp, .inl (.told htl), fun _ _ => .inl (.told htl)⟩
      · obtain ⟨ev, hev, hle⟩ := hlw sq hsq
        exact hle.trans (le_foldl_sequence.2 ev hev)
      · rcases mem_cons.1 hkd with rfl | hkd
        · exact .inl rfl
        · obtain ⟨ev, hev, rfl⟩ := List.mem_map.1 hkd
          exact .inr ⟨ev, rfl, le_foldl_sequence.2 ev hev, fun _ => .inr htl⟩
  · simp at hst

theorem receive (hst : c.step P cfg account .receive = some c') : Inv cfg account log c' := by
  simp only [Connection.step] at hst
  split at hst
  · next l hsr =>
    have hph := h.phase_eq hsr
    unfold Connection.receive at hst
    split at hst
    · simp at hst
    · next ev q hqu =>
      have hm : ∀ o, o ∈ c.view.queue ↔ o = ev ∨ o ∈ q := by
        intro o
        rw [show c.view.queue = ev :: q from hqu, mem_cons]
      have hrp := hph.queue ev ((hm ev).2 (.inl rfl))
      split at hst
      · next hn =>
        obtain rfl := some.inj hst
        refine h.withPhase (hph.send hn.le hrp (by simp)
          (fun o ho => (hm o).2 (.inr ho)) fun o ho hsq => ?_)
        rcases (hm o).1 ho with rfl | ho
        · exact .inr hsq
        · exact .inl ho
      · next hol =>
        obtain rfl := some.inj hst
        have hsk : PhaseInv account log { c.view with queue := q } c.phase := by
          rw [hsr]
          refine hph.withBeat (fun o ho => (hm o).2 (.inr ho)) (fun o ho hl hsq => ?_)
            (by simp) (by simp)
          rcases (hm o).1 ho with rfl | ho
          · omega
          · exact .queued hl ho hsq
        exact h.withPhase hsk
  · simp at hst

theorem lag {d : Nat} (hst : c.step P cfg account (.lag d) = some c') : Inv cfg account log c' := by
  simp only [Connection.step] at hst
  split at hst
  · next l hsr =>
    obtain rfl := some.inj hst
    have hph := h.phase_eq hsr
    -- The event may be lost, and the `Reset` takes its place.
    exact h.withPhase (hph.withBeat (fun o => mem_of_mem_drop)
      (fun _ _ hl _ => .beat hl rfl (.inl ⟨rfl, rfl⟩)) (by simp) (by rintro b db ⟨⟩ ⟨⟩))
  · simp at hst

theorem heartbeat (hst : c.step P cfg account .heartbeat = some c') : Inv cfg account log c' := by
  simp only [Connection.step] at hst
  split at hst
  · next l hsr =>
    obtain rfl := some.inj hst
    have hph := h.phase_eq hsr
    exact h.withPhase (hph.withBeat (fun o => id) (fun _ hm hl hsq => .queued hl hm hsq)
      (by simp) (by rintro b db ⟨⟩ ⟨⟩))
  · simp at hst

theorem beatSequence
    (hst : c.step P cfg account .beatSequence = some c') : Inv cfg account log c' := by
  simp only [Connection.step] at hst
  split at hst
  · next l r hsr =>
    obtain rfl := some.inj hst
    have hph := h.phase_eq hsr
    have hsq := h.logged.sequence
    refine h.withPhase (hph.withBeat (fun o => id) (fun _ hm hl hsq => .queued hl hm hsq)
      (fun _ _ hl => .beat hl rfl (.inr ⟨_, rfl, hsq⟩)) ?_)
    rintro b db ⟨⟩ ⟨⟩
    rw [hsq]
    exact ⟨hph.bound, le_rfl⟩
  · simp at hst

theorem beatRoot (hst : c.step P cfg account .beatRoot = some c') : Inv cfg account log c' := by
  simp only [Connection.step] at hst
  split at hst
  · next l r db hsr =>
    have hph := h.phase_eq hsr
    obtain ⟨hlw, hup⟩ := hph.heartbeat _ db rfl rfl
    -- What is sent names the current root, and a sequence that may be older.
    have hsn : ∀ ev, ev.sequence = eventSequence db account →
        eventRoot ev = currentRoot c.store.db account → Inv cfg account log { c with
            phase := .streaming ev.sequence none
            wire := c.wire ++ [.message (some (.ok ev))] } := by
      intro ev hsq hrt
      refine h.withPhase (hph.send (hsq ▸ hlw)
        ⟨hsq ▸ hup, fun _ => hrt.trans (currentRoot_eq h.logged)⟩ ?_ (fun o => id)
        fun o ho _ => .inl ho)
      rintro b ⟨⟩ hcr
      rcases hcr with ⟨-, hn⟩ | ⟨db', hdb', hl⟩
      · simp at hn
      · obtain rfl := some.inj hdb'
        exact hsq.trans hl
    unfold Connection.beatRoot at hst
    split at hst
    · simp at hst
    · next ev hev =>
      obtain rfl := heartbeatEvent_eq_ok hev
      split at hst
      · obtain rfl := some.inj hst
        exact hsn _ rfl rfl
      · obtain rfl := some.inj hst
        have hm : max l (eventSequence db account) = eventSequence db account := max_eq_right hlw
        have hin := hsn (.heartbeat (eventSequence db account)
          (currentRoot c.store.db account).1 (currentRoot c.store.db account).2) rfl rfl
        rw [AcsSseEvent.sequence, hm]
        exact hin
  · simp at hst

theorem report
    (hst : c.step P cfg account (.report nowEpochMs) = some c') : Inv cfg account log c' := by
  obtain ⟨k, w, hwi, rfl⟩ := report_eq_some hst
  cases hsr : c.phase with
  | idle =>
    have hem : c.wire = [] := (h.phase_eq hsr).2.1
    simp [hem] at hwi
  | opening s =>
    have hem : c.wire = [] := (h.phase_eq hsr).1
    simp [hem] at hwi
  | streaming l bt =>
    have hph := h.phase_eq hsr
    have hpl : ∀ {b : Bool}, c.view.polled = true → (c.polled || b) = true := by
      intro b hse
      have hse' : c.polled = true := hse
      rw [hse', Bool.true_or]
    rcases hph.wire k (by rw [show c.view.wire = k :: w from hwi]; simp) with rfl | ⟨ms, rfl, -, -⟩
    · obtain ⟨hls, hac, -⟩ := ends_iff.1 (h.listening.report_connected nowEpochMs none)
      have hso : storedRoot _ = storedRoot c.client := congrArg (Option.map _) hac
      have hin := hph.reportConnected hwi hac
      rw [forcesPoll_connected h.listening, Bool.or_true]
      refine ⟨hls, h.logged, h.unsent, h.answer.withClient hso, ?_⟩
      exact hin
    · rcases ends_iff.1 (h.listening.report_message nowEpochMs none ms) with ⟨hsm, hol⟩ |
        ⟨hnew, hls, hl, hso, -⟩
      · rw [hsm]
        refine ⟨h.listening, h.logged, h.unsent, h.answer, ?_⟩
        exact hph.reportOld hwi hpl hol
      · refine ⟨hls, h.logged, h.unsent, h.answer.withClient hso, ?_⟩
        refine hph.reportNew h.answer hwi hpl hl hso fun ho => ?_
        rw [forcesPoll_message h.listening hnew (.inr ho), Bool.or_true]

theorem serve (hok : Follows account c .serve)
    (hst : c.step P cfg account .serve = some c') : Inv cfg account log c' := by
  have hcr := currentRoot_eq h.logged
  have han : Answered log { c.view with answer := some (lastRoot log) } := by
    rintro r ⟨⟩
    refine ⟨le_rfl, fun st hso => ?_, fun ho => absurd rfl ho⟩
    have := hok st hso
    rwa [hcr] at this
  simp only [Connection.step] at hst
  split at hst
  · simp at hst
  · simp at hst
  · next hn hbs =>
    obtain rfl := some.inj hst
    rw [hcr]
    refine ⟨h.listening, h.logged, h.unsent, han, h.phase.withAnswer (absurd · hbs) ?_⟩
    rintro r ⟨⟩
    rfl

theorem accept {fp : Bool}
    (hst : c.step P cfg account (.accept fp) = some c') : Inv cfg account log c' := by
  simp only [Connection.step] at hst
  split at hst
  · simp at hst
  next r hrt =>
  obtain rfl := some.inj hst
  obtain ⟨hls, hl, hso⟩ := h.listening.adoptRoot r fp
  refine ⟨hls, h.logged, h.unsent, fun _ hn => by simp [Connection.view] at hn, ?_⟩
  cases hop : c.phase with
  | idle =>
    obtain ⟨hqu, hwi, -⟩ := h.phase_eq hop
    exact ⟨hqu, hwi, rfl⟩
  | opening s =>
    obtain ⟨hwi, hcr, hqu, hsn⟩ := h.phase_eq hop
    refine ⟨hwi, fun sq hsq => hcr sq (hl ▸ hsq), hqu,
      fun db hdb => ⟨fun sq hsq => ?_, (hsn db hdb).sequence, (hsn db hdb).events⟩⟩
    exact (hsn db hdb).cursor sq (hl ▸ hsq)
  | streaming l b =>
    have hph := h.phase_eq hop
    have hcm : Coming account log l b c.view → Coming account log l b
        { c.view with client := adoptRoot c.client r fp, answer := none } :=
      fun hcm => hcm.congr rfl rfl rfl hl rfl
    refine ⟨hph.bound, fun sq hcl => hph.client sq (hl ▸ hcl),
      hph.queue, hph.wire, hph.heartbeat, ?_, by rintro r ⟨⟩⟩
    rcases hph.answer r hrt with hnw | rfl
    · exact .inl (hcm hnw)
    · exact .inr hso

theorem lose (hst : c.step P cfg account .lose = some c') : Inv cfg account log c' := by
  obtain rfl := some.inj hst
  exact ⟨h.listening, h.logged, h.unsent, fun _ hn => by simp [Connection.view] at hn,
    h.phase.withAnswer (fun _ => rfl) (by rintro r ⟨⟩)⟩

/-- Every step keeps the invariant, with a log that may grow. -/
theorem step {l : ConnectionLabel}
    (hok : Follows account c l) (hst : c.step P cfg account l = some c') :
    ∃ log', Inv cfg account log' c' := by
  cases l with
  | server l => exact h.server hok hst
  | broadcast => exact ⟨log, h.broadcast hst⟩
  | subscribe => exact ⟨log, h.subscribe hok hst⟩
  | statement => exact ⟨log, h.statement hst⟩
  | respond => exact ⟨log, h.respond hst⟩
  | receive => exact ⟨log, h.receive hst⟩
  | lag d => exact ⟨log, h.lag hst⟩
  | heartbeat => exact ⟨log, h.heartbeat hst⟩
  | beatSequence => exact ⟨log, h.beatSequence hst⟩
  | beatRoot => exact ⟨log, h.beatRoot hst⟩
  | report now => exact ⟨log, h.report hst⟩
  | serve => exact ⟨log, h.serve hok hst⟩
  | accept fp => exact ⟨log, h.accept hst⟩
  | lose => exact ⟨log, h.lose hst⟩

/-- When nothing is on its way, the client polls or has the last root. -/
theorem settled (hst : c.Settled) :
    c.polled = true ∨ storedRoot c.client = some (currentRoot c.store.db account) := by
  obtain ⟨⟨l, hsr⟩, hun, hqu, hwi⟩ := hst
  have hph := h.phase_eq hsr
  rw [currentRoot_eq h.logged]
  refine hph.news.imp_left fun hcm => ?_
  cases hcm with
  | told h =>
    rcases h with h | h
    · have hm : .connected ∈ c.wire := h
      simp [hwi] at hm
    · exact h
  | unsent _ h =>
    have hsm : c.unsent = some _ := h
    simp [hun] at hsm
  | queued _ h _ =>
    have hm : _ ∈ c.queue := h
    simp [hqu] at hm
  | beat _ h _ => simp at h
  | wired h _ _ =>
    have hm : .message _ ∈ c.wire := h
    simp [hwi] at hm

theorem reset {n rev : Nat} {hs : Option String}
    (hwi : c.wire = .message (some (.ok (.reset n rev hs))) :: wire)
    (hn : Before c.client n) (hst : c.report nowEpochMs = some c') :
    c'.client.persistent.forcePoll = true ∧ c'.polled = true ∧
      lastEventSequence c'.client = some n := by
  obtain ⟨k, w', hwi', rfl⟩ := report_eq_some hst
  obtain ⟨rfl, -⟩ := List.cons.inj (hwi.symm.trans hwi')
  have hpl : forcesPoll ⟨c.streamId, .message (some (.ok (.reset n rev hs))), none⟩
      nowEpochMs c.client = true := forcesPoll_message h.listening hn (.inl rfl)
  rcases ends_iff.1 (h.listening.report_message nowEpochMs none (.reset n rev hs)) with
    ⟨-, hold⟩ | ⟨-, -, hl, -, hfr⟩
  · exact absurd hn hold
  · refine ⟨hfr (.inl rfl), ?_, hl⟩
    rw [hpl, Bool.or_true]

end Inv

theorem Inv.initial (h : Listening si client) :
    Inv cfg account [] (Connection.initial si client) where
  listening := h
  logged := .initialized
  unsent := by simp [Connection.initial]
  answer := by simp [Answered, Connection.view, Connection.initial]
  phase := ⟨rfl, rfl, rfl⟩

/-- Every run that meets the conditions has the invariant. -/
theorem exists_inv {ls : List ConnectionLabel} (hls : Listening si client)
    (hr : Run.exec (Connection.step P cfg account) (.initial si client) ls = some c)
    (hok : Run.Steps (Connection.step P cfg account) (Follows account) (.initial si client) ls) :
    ∃ log, Inv cfg account log c :=
  Run.exec_inv_of_steps (fun c => ∃ log, Inv cfg account log c)
    (fun hst hok ⟨_, h⟩ => h.step hok hst) ⟨[], .initial hls⟩ hr hok

end Steps

/-- Once it has been reported everything that was on its way, the client has set `force_poll` since
the last change, or knows the server's root; and a `Reset` that is new to the client makes it poll
and is the base of its event sequence. -/
theorem root_change_reaches_client {streamId : Nat} {client : CloudEngine J}
    {labels : List ConnectionLabel} {c : Connection J} (hlistening : Listening streamId client)
    (hrun : Run.exec (Connection.step P cfg account) (.initial streamId client) labels = some c)
    (hok : Run.Steps (Connection.step P cfg account) (Follows account) (.initial streamId client)
      labels) :
    (c.Settled →
      c.polled = true ∨ storedRoot c.client = some (currentRoot c.store.db account)) ∧
    ∀ sequence revision hash wire nowEpochMs c',
      c.wire = .message (some (.ok (.reset sequence revision hash))) :: wire →
      Before c.client sequence → c.step P cfg account (.report nowEpochMs) = some c' →
        c'.client.persistent.forcePoll = true ∧ c'.polled = true ∧
          lastEventSequence c'.client = some sequence := by
  obtain ⟨log, hin⟩ := exists_inv hlistening hrun hok
  refine ⟨hin.settled, ?_⟩
  intro sequence revision hash wire nowEpochMs c' hwi hnew hst
  exact hin.reset hwi hnew hst

/-! ## A connection -/

def listener (sequence : Option Nat) : CloudEngine Unit :=
  { CloudEngine.resume CloudPersistentState.default with
    persistent.account := some ⟨"secret", none, some ⟨"https://aerobag.org/cloud/", "account", 0, none,
      sequence⟩⟩
    acsEventStreamPlan := some ⟨1, "https://aerobag.org/cloud/events", 10000, 60000⟩ }

theorem listening_listener (sq : Option Nat) : Listening 1 (listener sq) := ⟨⟨_, rfl, rfl⟩, _, rfl⟩

/-- An account with one root; the client connects, and is reported the headers and the initial
event. -/
def connectAfterSwap : List ConnectionLabel :=
  [.server (.createAccount "account" "key" []),
    .server (.compareAndSwapRoot "account" ⟨0, none, rootValue "first"⟩ 0 1 (.ok ())), .broadcast,
    .subscribe] ++ List.replicate 7 .statement ++ [.respond, .report 0, .report 0]

/-- Another device changes the root, and the client is reported the event. -/
def swapWhileConnected : List ConnectionLabel :=
  [.server (.compareAndSwapRoot "account" ⟨1, ((rootValue "first").authenticatedHash
      standardPrimitives .root acsFixedRootId).toOption, rootValue "second"⟩ 0 1 (.ok ())),
    .broadcast, .receive, .report 0]

def Connection.streamsIdle (c : Connection J) : Bool :=
  match c.phase with
  | .streaming _ none => true
  | _ => false

theorem Connection.streamsIdle_iff {c : Connection J} :
    c.streamsIdle = true ↔ ∃ l, c.phase = .streaming l none := by
  unfold streamsIdle
  split <;> simp_all

/-- The account is not deleted, and the client subscribes before its first event. -/
def followsFirst (c : Connection J) : ConnectionLabel → Bool
  | .server (.deleteAccount _) => false
  | .subscribe => (lastEventSequence c.client).isNone
  | .serve => false
  | _ => true

theorem follows_of_followsFirst {c : Connection J} {l : ConnectionLabel}
    (h : followsFirst c l = true) : Follows "account" c l := by
  cases l with
  | server l =>
    rintro rfl
    simp [followsFirst] at h
  | subscribe =>
    intro sq hsq
    simp [followsFirst, hsq] at h
  | serve => simp [followsFirst] at h
  | _ => trivial

/-- The theorem at a client that has not had an event before. -/
theorem root_change_reaches_client_swapWhileConnected :
    ∃ c, Run.exec (Connection.step standardPrimitives oneEvent "account") (.initial 1 (listener none))
        (connectAfterSwap ++ swapWhileConnected) = some c ∧
      (currentRoot c.store.db "account").1 = 2 ∧
      (c.polled = true ∨ storedRoot c.client = some (currentRoot c.store.db "account")) := by
  have hch : (Run.exec (Connection.step standardPrimitives oneEvent "account")
      (.initial 1 (listener none)) (connectAfterSwap ++ swapWhileConnected)).any (fun c =>
        c.streamsIdle && c.unsent.isNone && c.queue.isEmpty && c.wire.isEmpty &&
        decide ((currentRoot c.store.db "account").1 = 2)) = true := by decide +kernel
  have hok : Run.Steps (Connection.step standardPrimitives oneEvent "account")
      (fun c l => followsFirst c l = true) (.initial 1 (listener none))
      (connectAfterSwap ++ swapWhileConnected) := by decide +kernel
  have hfl : Run.Steps (Connection.step standardPrimitives oneEvent "account") (Follows "account")
      (.initial 1 (listener none)) (connectAfterSwap ++ swapWhileConnected) :=
    hok.mono fun _ _ => follows_of_followsFirst
  obtain ⟨c, hr, h⟩ := Run.exists_of_any hch
  simp only [Bool.and_eq_true, isNone_iff_eq_none, List.isEmpty_iff, decide_eq_true_eq] at h
  obtain ⟨⟨⟨⟨hph, hun⟩, hqu⟩, hwi⟩, hrv⟩ := h
  refine ⟨c, hr, hrv, (root_change_reaches_client (listening_listener none) hr hfl).1
      ⟨?_, hun, hqu, hwi⟩⟩
  exact Connection.streamsIdle_iff.1 hph

/-- A client that has reached event 10 connects to a server that is at event 1. The `Reset` neither
makes it poll nor takes its sequence back; so it ignores the next change too. -/
theorem root_change_missed :
    (Run.exec (Connection.step standardPrimitives oneEvent "account") (.initial 1 (listener (some 10)))
      connectAfterSwap.dropLast).any (fun c =>
        match c.wire with
        | [.message (some (.ok (.reset sequence revision hash)))] =>
          decide (sequence = 1) &&
          !forcesPoll ⟨1, .message (some (.ok (.reset sequence revision hash))), none⟩ 0 c.client
        | _ => false) = true ∧
    (Run.exec (Connection.step standardPrimitives oneEvent "account") (.initial 1 (listener (some 10)))
      (connectAfterSwap ++ swapWhileConnected)).any (fun c =>
        (match c.phase with | .streaming _ none => true | _ => false) && c.unsent.isNone &&
        c.queue.isEmpty && c.wire.isEmpty && !c.polled &&
        decide (storedRoot c.client ≠ some (currentRoot c.store.db "account")) &&
        decide (lastEventSequence c.client = some 10)) = true := by
  decide +kernel

end Aerobag.EventStream
