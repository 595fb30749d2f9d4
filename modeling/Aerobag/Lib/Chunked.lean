import Aerobag.Lib.Except
import Mathlib.Data.List.Basic

/-!
# Records that arrive in chunks

Records with a header from which their length can be read. `Format.feed` keeps the incomplete record
in a buffer. It does to a chunk what it does to its elements one by one (`feed_eq_pushAll`), so that
it makes no difference how a stream is cut.
-/

open List

namespace Chunked

universe u

structure Format (β ε : Type u) where
  header : Nat
  /-- The length of a record, its header included, whose first elements these are. -/
  length : List β → Except ε Nat
  header_pos : 0 < header
  /-- The length is read from the header alone. -/
  length_append : ∀ {bytes : List β} (more : List β), header ≤ bytes.length →
    length (bytes ++ more) = length bytes
  header_le : ∀ {bytes : List β} {n : Nat}, length bytes = .ok n → header ≤ n

namespace Format

variable {β ε σ ω : Type u} (F : Format β ε)

/-- A beginning of a record that is not all of it. -/
def Incomplete (bytes : List β) : Prop :=
  bytes.length < F.header ∨ ∃ n, F.length bytes = .ok n ∧ bytes.length < n

/-- What has arrived of the next record. -/
structure Buffer where
  bytes : List β
  incomplete : F.Incomplete bytes

def empty : F.Buffer := ⟨[], .inl F.header_pos⟩

def target (bytes : List β) : Except ε Nat :=
  if bytes.length < F.header then .ok F.header else F.length bytes

/-- The buffer, if the record is still incomplete. -/
def check (bytes : List β) : Except ε (Option F.Buffer) :=
  if h : bytes.length < F.header then .ok (some ⟨bytes, .inl h⟩)
  else
    match hlength : F.length bytes with
    | .error e => .error e
    | .ok n =>
      if h : bytes.length < n then .ok (some ⟨bytes, .inr ⟨n, hlength, h⟩⟩) else .ok none

variable (finish : σ → List β → Except ε (σ × List ω))

/-- What becomes of the bytes in the buffer: they stay there, or they are a record and are handled. -/
def settle (s : σ) (bytes : List β) (out : List ω) : Except ε (F.Buffer × σ × List ω) :=
  match F.check bytes with
  | .error e => .error e
  | .ok (some buffer) => .ok (buffer, s, out)
  | .ok none =>
    match finish s bytes with
    | .error e => .error e
    | .ok (s', records) => .ok (F.empty, s', out ++ records)

variable {F} in
theorem Buffer.lt_target {b : F.Buffer} {n : Nat} (h : F.target b.bytes = .ok n) :
    b.bytes.length < n := by
  unfold target at h
  split at h
  · next hhd => exact Except.ok.inj h ▸ hhd
  · next hhd =>
    obtain hlt | ⟨m, hm, hlt⟩ := b.incomplete
    · exact absurd hlt hhd
    · exact Except.ok.inj (hm.symm.trans h) ▸ hlt

/-- Fills the buffer up to the target, as far as the chunk goes: the bytes in the buffer then, and what
is left of the chunk. -/
def fill (buffer : F.Buffer) (target : Nat) (bytes : List β) : List β × List β :=
  let count := min (target - buffer.bytes.length) bytes.length
  (buffer.bytes ++ bytes.take count, bytes.drop count)

variable {F} in
theorem length_fill_le {b : F.Buffer} {n : Nat} {bs : List β}
    (h : F.target b.bytes = .ok n) : (F.fill b n bs).1.length ≤ n := by
  have hlt := Buffer.lt_target h
  rw [fill, List.length_append, length_take]
  omega

variable {F} in
theorem length_fill_lt {b : F.Buffer} {n : Nat} {bs : List β}
    (h : F.target b.bytes = .ok n) (hb : bs ≠ []) : (F.fill b n bs).2.length < bs.length := by
  have hlt := Buffer.lt_target h
  have hp := length_pos_iff.2 hb
  rw [fill, length_drop]
  omega

def feed (buffer : F.Buffer) (s : σ) (bytes : List β) (out : List ω) :
    Except ε (F.Buffer × σ × List ω) :=
  if _hbytes : bytes = [] then .ok (buffer, s, out)
  else
    match _htarget : F.target buffer.bytes with
    | .error e => .error e
    | .ok target =>
      let filled := F.fill buffer target bytes
      match F.settle finish s filled.1 out with
      | .error e => .error e
      | .ok (buffer', s', out') => feed buffer' s' filled.2 out'
termination_by bytes.length
decreasing_by exact length_fill_lt _htarget _hbytes

def push (buffer : F.Buffer) (s : σ) (byte : β) (out : List ω) : Except ε (F.Buffer × σ × List ω) :=
  F.settle finish s (buffer.bytes ++ [byte]) out

def pushAll (buffer : F.Buffer) (s : σ) : List β → List ω → Except ε (F.Buffer × σ × List ω)
  | [], out => .ok (buffer, s, out)
  | byte :: bytes, out =>
    match F.push finish buffer s byte out with
    | .error e => .error e
    | .ok (buffer', s', out') => pushAll buffer' s' bytes out'

variable {F finish} {buffer b : F.Buffer} {s : σ} {out : List ω} {bytes bs : List β} {n : Nat}

theorem pushAll_append (m : List β) : F.pushAll finish b s (bs ++ m) out =
    match F.pushAll finish b s bs out with
    | .error e => .error e
    | .ok (buffer', s', out') => F.pushAll finish buffer' s' m out' := by
  induction bs generalizing b s out with
  | nil => rfl
  | cons byt bs ih =>
    rw [cons_append, pushAll, pushAll]
    cases F.push finish b s byt out with
    | error e => rfl
    | ok next => exact ih

theorem check_of_incomplete (h : F.Incomplete bytes) : F.check bytes = .ok (some ⟨bytes, h⟩) := by
  unfold check
  split
  · rfl
  · next hhd =>
    obtain hlt | ⟨n, hn, hlt⟩ := h
    · exact absurd hlt hhd
    · split
      · next e he => simp [he] at hn
      · next m hm =>
        obtain rfl : m = n := Except.ok.inj (hm.symm.trans hn)
        rw [dif_pos hlt]

theorem incomplete_of_lt (ht : F.target buffer.bytes = .ok n)
    (hlt : (buffer.bytes ++ bytes).length < n) :
    F.Incomplete (buffer.bytes ++ bytes) ∧ F.target (buffer.bytes ++ bytes) = .ok n := by
  unfold target at ht ⊢
  split at ht
  · obtain rfl := Except.ok.inj ht
    exact ⟨.inl hlt, if_pos hlt⟩
  · next hhd =>
    have hhd' := Nat.le_of_not_lt hhd
    have hl := (F.length_append bytes hhd').trans ht
    refine ⟨.inr ⟨n, hl, hlt⟩, ?_⟩
    rw [if_neg, hl]
    rw [List.length_append]
    omega

/-- Elements that do not go beyond the target may as well arrive together. -/
theorem pushAll_eq_settle (ht : F.target b.bytes = .ok n) (hb : bs ≠ [])
    (hle : (b.bytes ++ bs).length ≤ n) :
    F.pushAll finish b s bs out = F.settle finish s (b.bytes ++ bs) out := by
  induction bs generalizing b with
  | nil => exact absurd rfl hb
  | cons byt bs ih =>
    rw [pushAll]
    by_cases hl : bs = []
    · subst hl
      unfold push
      cases F.settle finish s (b.bytes ++ [byt]) out with
      | error e => rfl
      | ok next => rfl
    · have hp := length_pos_iff.2 hl
      have hlt : (b.bytes ++ [byt]).length < n := by
        simp only [List.length_append, length_cons, length_nil] at hle ⊢
        omega
      obtain ⟨hin, hnx⟩ := incomplete_of_lt ht hlt
      have hps : F.push finish b s byt out = .ok (⟨b.bytes ++ [byt], hin⟩, s, out) := by
        rw [push, settle, check_of_incomplete hin]
      rw [hps]
      have hap : b.bytes ++ byt :: bs = b.bytes ++ [byt] ++ bs := by simp
      rw [hap]
      exact @ih ⟨b.bytes ++ [byt], hin⟩ hnx hl (by rwa [← hap])

/-- One turn of the loop does what the elements it takes do. -/
theorem pushAll_of_settle (ht : F.target buffer.bytes = .ok n) (hb : bytes ≠ []) :
    F.pushAll finish buffer s bytes out = match F.settle finish s (F.fill buffer n bytes).1 out with
      | .error e => .error e
      | .ok (buffer', s', out') => F.pushAll finish buffer' s' (F.fill buffer n bytes).2 out' := by
  have hle : (F.fill buffer n bytes).1.length ≤ n := length_fill_le ht
  have hlt := Buffer.lt_target ht
  have hp := length_pos_iff.2 hb
  unfold fill at hle ⊢
  generalize hc : min (n - buffer.bytes.length) bytes.length = count at hle ⊢
  have htk : bytes.take count ≠ [] := by
    rw [ne_eq, take_eq_nil_iff, not_or]
    exact ⟨by omega, hb⟩
  rw [← pushAll_eq_settle ht htk hle, ← pushAll_append, take_append_drop]

theorem target_ne_error (e : ε) : F.target buffer.bytes ≠ .error e := by
  unfold target
  split
  · exact nofun
  · next hhd =>
    obtain hlt | ⟨n, hn, -⟩ := buffer.incomplete
    · exact absurd hlt hhd
    · simp [hn]

theorem feed_eq_pushAll : F.feed finish buffer s bytes out = F.pushAll finish buffer s bytes out := by
  fun_induction feed F finish buffer s bytes out with
  | case1 => rfl
  | case2 buffer s bytes out hb e ht => exact absurd ht (target_ne_error e)
  | case3 buffer s bytes out hb tg ht filled e hst => rw [pushAll_of_settle ht hb, hst]
  | case4 buffer s bytes out hb tg ht filled buffer' s' out' hst ih =>
    rw [pushAll_of_settle ht hb, hst]
    exact ih

def Complete (F : Format β ε) (record : List β) : Prop :=
  F.length record = .ok record.length

theorem check_of_complete {r : List β} (h : F.Complete r) : F.check r = .ok none := by
  have hhd := F.header_le h
  unfold check
  rw [dif_neg (by omega)]
  split
  · next e he => exact nomatch h.symm.trans he
  · next n hn =>
    obtain rfl : r.length = n := Except.ok.inj (h.symm.trans hn)
    rw [dif_neg (Nat.lt_irrefl _)]

theorem Complete.ne_nil {r : List β} (h : F.Complete r) : r ≠ [] := by
  rintro rfl
  exact absurd (F.header_le h) (Nat.not_le.2 F.header_pos)

theorem Incomplete.of_append {first m : List β} (h : F.Incomplete (first ++ m)) :
    F.Incomplete first := by
  by_cases hhd : first.length < F.header
  · exact .inl hhd
  · have hle := Nat.le_of_not_lt hhd
    obtain hlt | ⟨n, hn, hlt⟩ := h
    · rw [List.length_append] at hlt
      omega
    · rw [F.length_append m hle] at hn
      rw [List.length_append] at hlt
      exact .inr ⟨n, hn, by omega⟩

theorem Complete.incomplete_of_append {first m : List β} (h : F.Complete (first ++ m))
    (hmr : m ≠ []) : F.Incomplete first := by
  have hp := length_pos_iff.2 hmr
  by_cases hhd : first.length < F.header
  · exact .inl hhd
  · have hle := Nat.le_of_not_lt hhd
    unfold Complete at h
    rw [F.length_append m hle, List.length_append] at h
    exact .inr ⟨_, h, by omega⟩

theorem pushAll_of_incomplete (h : F.Incomplete (b.bytes ++ bs)) :
    F.pushAll finish b s bs out = .ok (⟨b.bytes ++ bs, h⟩, s, out) := by
  induction bs generalizing b with
  | nil =>
    have hbf : b = ⟨b.bytes ++ [], h⟩ := by simp
    rw [pushAll, ← hbf]
  | cons byt bs ih =>
    have hap : b.bytes ++ byt :: bs = b.bytes ++ [byt] ++ bs := by simp
    have h' : F.Incomplete (b.bytes ++ [byt] ++ bs) := hap ▸ h
    have hps : F.push finish b s byt out = .ok (⟨_, h'.of_append⟩, s, out) := by
      rw [push, settle, check_of_incomplete h'.of_append]
    rw [pushAll, hps]
    simp only [hap]
    exact ih h'

theorem pushAll_complete {r : List β} (h : F.Complete r) : F.pushAll finish F.empty s r out =
    match finish s r with
      | .error e => .error e
      | .ok (s', records) => .ok (F.empty, s', out ++ records) := by
  obtain hnl | ⟨first, b, rfl⟩ := eq_nil_or_concat' r
  · exact absurd hnl h.ne_nil
  · have hf : F.Incomplete (F.empty.bytes ++ first) := h.incomplete_of_append (cons_ne_nil b [])
    rw [pushAll_append, pushAll_of_incomplete hf]
    have hps : F.push finish ⟨F.empty.bytes ++ first, hf⟩ s b out =
        F.settle finish s (first ++ [b]) out := rfl
    simp only [pushAll, hps, settle, check_of_complete h]
    cases finish s (first ++ [b]) with
    | error e => rfl
    | ok next => rfl

def finishAll (finish : σ → List β → Except ε (σ × List ω)) (s : σ) :
    List (List β) → List ω → Except ε (σ × List ω)
  | [], out => .ok (s, out)
  | record :: records, out =>
    match finish s record with
    | .error e => .error e
    | .ok (s', done) => finishAll finish s' records (out ++ done)

/-- A stream of complete records, and what has arrived of the next one. -/
theorem pushAll_flatten {rs : List (List β)} {rst : List β}
    (hre : ∀ r ∈ rs, F.Complete r) (hr : F.Incomplete rst) :
    F.pushAll finish F.empty s (rs.flatten ++ rst) out = match finishAll finish s rs out with
      | .error e => .error e
      | .ok (s', out') => .ok (⟨rst, hr⟩, s', out') := by
  induction rs generalizing s out with
  | nil => exact pushAll_of_incomplete hr
  | cons r rs ih =>
    obtain ⟨hrc, hre⟩ := forall_mem_cons.1 hre
    rw [flatten_cons, append_assoc, pushAll_append, pushAll_complete hrc, finishAll]
    cases finish s r with
    | error e => rfl
    | ok next => exact ih hre

section Invariant

variable {I : σ → Prop} {E : ε → Prop}

/-- What the handling of a record keeps, and what its errors are, holds of a stream of bytes. -/
theorem pushAll_inv (hl : ∀ bs e, F.length bs = .error e → E e)
    (her : ∀ s r e, I s → finish s r = .error e → E e)
    (hok : ∀ s r s' out, I s → finish s r = .ok (s', out) → I s') (hs : I s) :
    (∀ e, F.pushAll finish b s bs out = .error e → E e) ∧
      ∀ b' s' out', F.pushAll finish b s bs out = .ok (b', s', out') → I s' := by
  induction bs generalizing b s out with
  | nil =>
    refine ⟨nofun, ?_⟩
    rintro b' s' out' ⟨⟩
    exact hs
  | cons byt bs ih =>
    rw [pushAll, push, settle]
    cases hch : F.check (b.bytes ++ [byt]) with
    | error e =>
      refine ⟨?_, nofun⟩
      rintro e' ⟨⟩
      unfold check at hch
      split at hch
      · exact nomatch hch
      · split at hch
        · next he =>
          cases hch
          exact hl _ _ he
        · split at hch <;> exact nomatch hch
    | ok k =>
      cases k with
      | some b' => exact ih hs
      | none =>
        cases hfn : finish s (b.bytes ++ [byt]) with
        | error e =>
          refine ⟨?_, nofun⟩
          rintro e' ⟨⟩
          exact her _ _ _ hs hfn
        | ok next => exact ih (hok _ _ _ _ hs hfn)

end Invariant

theorem settle_out (b : List ω) : F.settle finish s bytes (b ++ out) =
    (F.settle finish s bytes out).map fun r => (r.1, r.2.1, b ++ r.2.2) := by
  unfold settle
  cases F.check bytes with
  | error e => rfl
  | ok k =>
    cases k with
    | some bf => rfl
    | none =>
      cases finish s bytes with
      | error e => rfl
      | ok next => simp [Except.map]

theorem pushAll_out (bf : List ω) : F.pushAll finish b s bs (bf ++ out) =
    (F.pushAll finish b s bs out).map fun r => (r.1, r.2.1, bf ++ r.2.2) := by
  induction bs generalizing b s out with
  | nil => rfl
  | cons byt bs ih =>
    rw [pushAll, pushAll, push, settle_out]
    unfold push
    cases F.settle finish s (b.bytes ++ [byt]) out with
    | error e => rfl
    | ok next => exact ih

end Format

structure Decoder (β ε σ ω : Type u) where
  format : Format β ε
  initial : σ
  finish : σ → List β → Except ε (σ × List ω)
  /-- The longest chunk that is taken. -/
  limit : Nat
  tooLong : ε
  resetRequired : ε

namespace Decoder

variable {β ε σ ω : Type u} (D : Decoder β ε σ ω)

structure State where
  buffer : D.format.Buffer
  state : σ
  failed : Bool

def start : D.State := ⟨D.format.empty, D.initial, false⟩

variable {D} in
def State.reset (_ : D.State) : D.State := D.start

def stopped : D.State := ⟨D.format.empty, D.initial, true⟩

/-- Feeds a chunk. A decoder that has failed takes nothing until it is reset. -/
def feed (d : D.State) (bytes : List β) : D.State × Except ε (List ω) :=
  if d.failed then (d, .error D.resetRequired)
  else if bytes.length > D.limit then (D.stopped, .error D.tooLong)
  else
    match D.format.feed D.finish d.buffer d.state bytes [] with
    | .error e => (D.stopped, .error e)
    | .ok (buffer, state, out) => (⟨buffer, state, false⟩, .ok out)

/-- Feeds chunks one after the other: the decoder in the end, and what each call returned. -/
def feedAll (d : D.State) : List (List β) → D.State × List (Except ε (List ω))
  | [] => (d, [])
  | chunk :: chunks =>
    let next := D.feed d chunk
    let rest := feedAll next.1 chunks
    (rest.1, next.2 :: rest.2)

inductive Reachable : D.State → Prop
  | start : Reachable D.start
  | feed {d : D.State} (bytes : List β) : Reachable d → Reachable (D.feed d bytes).1
  | reset {d : D.State} : Reachable d → Reachable d.reset

/-- The chunks are a way of cutting the bytes. -/
structure Cuts (bytes : List β) (chunks : List (List β)) : Prop where
  flatten : chunks.flatten = bytes
  bounded : ∀ chunk ∈ chunks, chunk.length ≤ D.limit

variable {D} {d : D.State} {bytes : List β} {chunks : List (List β)}

theorem feed_of_failed (h : d.failed) : D.feed d bytes = (d, .error D.resetRequired) := by
  rw [feed, if_pos h]

theorem failed_of_error {e : ε} (h : (D.feed d bytes).2 = .error e) : (D.feed d bytes).1.failed := by
  unfold feed at h ⊢
  split
  · next hfl => exact hfl
  · split
    · rfl
    · next hfl hlm =>
      rw [if_neg hfl, if_neg hlm] at h
      split
      · rfl
      · next hr =>
        rw [hr] at h
        exact nomatch h

theorem feedAll_of_failed {cs : List (List β)} (h : d.failed) :
    D.feedAll d cs = (d, cs.map fun _ => .error D.resetRequired) := by
  induction cs with
  | nil => rfl
  | cons ch cs ih => rw [feedAll, feed_of_failed h, ih, map_cons]

theorem feed_eq (hd : d.failed = false) (hb : bytes.length ≤ D.limit) : D.feed d bytes =
    match D.format.pushAll D.finish d.buffer d.state bytes [] with
    | .error e => (D.stopped, .error e)
    | .ok (buffer, state, out) => (⟨buffer, state, false⟩, .ok out) := by
  rw [feed, if_neg (by simp [hd]), if_neg (by omega), Format.feed_eq_pushAll]

/-- A decoder that has not failed does to the chunks what it does to all of the bytes at once. -/
theorem feedAll_eq {cs : List (List β)}
    (hd : d.failed = false) (hck : ∀ ch ∈ cs, ch.length ≤ D.limit) :
    match D.format.pushAll D.finish d.buffer d.state cs.flatten [] with
    | .error e => (D.feedAll d cs).1 = D.stopped ∧ .error e ∈ (D.feedAll d cs).2
    | .ok (b, state, out) => ∃ os : List (List ω),
        D.feedAll d cs = (⟨b, state, false⟩, os.map .ok) ∧ os.flatten = out := by
  induction cs generalizing d with
  | nil =>
    refine ⟨[], ?_, rfl⟩
    rw [← hd]
    rfl
  | cons ch cs ih =>
    obtain ⟨hch, hck⟩ := forall_mem_cons.1 hck
    rw [flatten_cons, Format.pushAll_append, feedAll, feed_eq hd hch]
    cases D.format.pushAll D.finish d.buffer d.state ch [] with
    | error e =>
      have hst : D.feedAll D.stopped cs = _ := feedAll_of_failed rfl
      exact ⟨congrArg Prod.fst hst, mem_cons_self⟩
    | ok next =>
      obtain ⟨b, state, out⟩ := next
      have hr := @ih ⟨b, state, false⟩ rfl hck
      have ho : D.format.pushAll D.finish b state cs.flatten (out ++ []) = _ :=
        Format.pushAll_out out
      rw [append_nil] at ho
      simp only [ho]
      cases hps : D.format.pushAll D.finish b state cs.flatten [] with
      | error e =>
        simp only [hps] at hr
        exact ⟨hr.1, mem_cons_of_mem _ hr.2⟩
      | ok l =>
        simp only [hps] at hr
        obtain ⟨os, hal, hfl⟩ := hr
        refine ⟨out :: os, ?_, ?_⟩
        · rw [hal]
          rfl
        · rw [flatten_cons, hfl]

theorem feed_inv {bs : List β} {I : σ → Prop} {E : ε → Prop}
    (hl : ∀ bs e, D.format.length bs = .error e → E e)
    (he : ∀ s r e, I s → D.finish s r = .error e → E e)
    (hok : ∀ s r s' out, I s → D.finish s r = .ok (s', out) → I s')
    (hin : I D.initial) (htl : E D.tooLong) (hrs : E D.resetRequired) (hd : I d.state) :
    I (D.feed d bs).1.state ∧ ∀ e, (D.feed d bs).2 = .error e → E e := by
  by_cases hfl : d.failed
  · rw [feed_of_failed hfl]
    refine ⟨hd, ?_⟩
    rintro e ⟨⟩
    exact hrs
  · by_cases hlm : bs.length > D.limit
    · rw [feed, if_neg hfl, if_pos hlm]
      refine ⟨hin, ?_⟩
      rintro e ⟨⟩
      exact htl
    · have hps : (∀ e, D.format.pushAll D.finish d.buffer d.state bs [] = .error e → E e) ∧ _ :=
        Format.pushAll_inv hl he hok hd
      rw [feed_eq (by simpa using hfl) (Nat.le_of_not_lt hlm)]
      cases hr : D.format.pushAll D.finish d.buffer d.state bs [] with
      | error e =>
        refine ⟨hin, ?_⟩
        rintro e' ⟨⟩
        exact hps.1 _ hr
      | ok l => exact ⟨hps.2 _ _ _ hr, nofun⟩

/-- Two ways of cutting the same bytes: with both there is an error, or with both the decoder puts out
the same and is the same in the end. -/
theorem feedAll_cuts {cs' : List (List β)} (hd : d.failed = false) (h : D.Cuts bytes chunks)
    (h' : D.Cuts bytes cs') :
    (∃ e, .error e ∈ (D.feedAll d chunks).2 ∧ .error e ∈ (D.feedAll d cs').2) ∨
      ∃ os os' : List (List ω), (D.feedAll d chunks).2 = os.map .ok ∧
        (D.feedAll d cs').2 = os'.map .ok ∧ os.flatten = os'.flatten ∧
        (D.feedAll d chunks).1 = (D.feedAll d cs').1 := by
  have hr := feedAll_eq hd h.bounded
  have hr' := feedAll_eq hd h'.bounded
  rw [h.flatten] at hr
  rw [h'.flatten] at hr'
  cases hps : D.format.pushAll D.finish d.buffer d.state bytes [] with
  | error e =>
    simp only [hps] at hr hr'
    exact .inl ⟨e, hr.2, hr'.2⟩
  | ok l =>
    simp only [hps] at hr hr'
    obtain ⟨os, hal, hfl⟩ := hr
    obtain ⟨os', hal', hfl'⟩ := hr'
    refine .inr ⟨os, os', congrArg Prod.snd hal, congrArg Prod.snd hal', hfl.trans hfl'.symm, ?_⟩
    rw [hal, hal']

end Decoder

end Chunked
