import Aerobag.Receiver.Reassembly

/-!
# Exactness of the reassembly

An `ApplicationStream` holds the messages of the history that have not ended (`Represents`), with
their total length (`Valid`). One record keeps that, and so does every run.
-/

open List Option Except

namespace List

variable {α : Type} {p : α → Bool}

theorem sinceLast_concat (l : List α) (a : α) :
    (l ++ [a]).sinceLast p = if p a then some [a] else (l.sinceLast p).map (· ++ [a]) := by
  induction l with
  | nil => simp [sinceLast]
  | cons b l ih =>
    rw [cons_append, sinceLast, sinceLast, ih]
    by_cases ha : p a
    · simp [ha]
    · cases l.sinceLast p with
      | some f => simp [ha]
      | none =>
        by_cases hb : p b
        · simp [ha]
        · simp [ha]

theorem mem_of_sinceLast {l f : List α} (h : l.sinceLast p = some f) : ∃ a ∈ l, p a := by
  induction l with
  | nil => exact nomatch h
  | cons b l ih =>
    rw [sinceLast] at h
    cases hl : l.sinceLast p with
    | some f' =>
      obtain ⟨a, ha, hp⟩ := ih (hl.trans (by simpa [hl] using h))
      exact ⟨a, mem_cons_of_mem _ ha, hp⟩
    | none =>
      by_cases hb : p b
      · exact ⟨b, mem_cons_self, hb⟩
      · simp [hl, hb] at h

end List

namespace Aerobag.Receiver

open Chunked

section History

variable {hist : List WireRecord} {r : WireRecord} {id : UInt32}

theorem fragmentsOf_concat (hs : List WireRecord) (r : WireRecord) (id : UInt32) :
    fragmentsOf (hs ++ [r]) id =
      fragmentsOf hs id ++ if r.isControl = false ∧ r.id = id then [r] else [] := by
  unfold fragmentsOf
  rw [filter_append]
  congr 1
  by_cases h : r.isControl = false ∧ r.id = id
  · simp [h.1, h.2]
  · rw [if_neg h]
    simpa using h

theorem sinceStart_of_other (h : ¬(r.isControl = false ∧ r.id = id)) :
    sinceStart (hist ++ [r]) id = sinceStart hist id := by
  rw [sinceStart, fragmentsOf_concat, if_neg h, append_nil]
  rfl

theorem openMessage_of_other (h : ¬(r.isControl = false ∧ r.id = id)) :
    openMessage (hist ++ [r]) id = openMessage hist id := by
  rw [openMessage, sinceStart_of_other h]
  rfl

theorem sinceStart_fragment (h : r.isControl = false) : sinceStart (hist ++ [r]) r.id =
    if r.isStart then some [r] else (sinceStart hist r.id).map (· ++ [r]) := by
  rw [sinceStart, fragmentsOf_concat, if_pos ⟨h, rfl⟩, List.sinceLast_concat]
  rfl

theorem openMessage_of_end (h : r.isControl = false) (he : r.isEnd) :
    openMessage (hist ++ [r]) r.id = none := by
  rw [openMessage, sinceStart_fragment h]
  by_cases hs : r.isStart
  · simp [hs, he]
  · cases sinceStart hist r.id with
    | none => simp [hs]
    | some fs => simp [hs, he]

theorem openMessage_of_start (h : r.isControl = false) (he : r.isEnd = false)
    (hs : r.isStart) : openMessage (hist ++ [r]) r.id = some [r] := by
  rw [openMessage, sinceStart_fragment h, if_pos hs]
  simp [he]

theorem openMessage_of_middle (h : r.isControl = false) (he : r.isEnd = false)
    (hs : r.isStart = false) :
    openMessage (hist ++ [r]) r.id = (openMessage hist r.id).map (· ++ [r]) := by
  rw [openMessage, openMessage, sinceStart_fragment h, if_neg (by simp [hs])]
  cases sinceStart hist r.id with
  | none => rfl
  | some fs =>
    by_cases hal : fs.all (!·.isEnd)
    · simp [Option.filter, he]
    · simp [Option.filter, hal]

theorem sinceStart_of_open {fs : List WireRecord}
    (h : openMessage hist id = some fs) : sinceStart hist id = some fs :=
  (filter_eq_some_iff.1 h).1

theorem mem_ids_of_open (h : (openMessage hist id).isSome) : id ∈ hist.map (·.id) := by
  obtain ⟨fs, hfr⟩ := isSome_iff_exists.1 h
  obtain ⟨r, hr, -⟩ := List.mem_of_sinceLast (sinceStart_of_open hfr)
  simp only [fragmentsOf, mem_filter, Bool.and_eq_true, beq_iff_eq] at hr
  exact List.mem_map.2 ⟨r, hr.1, hr.2.2⟩

theorem mem_otherIds {o : UInt32} :
    o ∈ otherIds hist id ↔ o ≠ id ∧ (openMessage hist o).isSome := by
  simp only [otherIds, mem_filter, mem_dedup, Bool.and_eq_true, bne_iff_ne]
  exact ⟨fun h => h.2, fun h => ⟨mem_ids_of_open h.2, h⟩⟩

theorem nodup_otherIds : (otherIds hist id).Nodup := (nodup_dedup _).filter _

end History

theorem attributesOf_concat (fs : List WireRecord) (r : WireRecord) :
    attributesOf (fs ++ [r]) = attributesOf fs ||| r.attributes := by
  simp [attributesOf]

theorem dataOf_concat (fs : List WireRecord) (r : WireRecord) :
    dataOf (fs ++ [r]) = dataOf fs ++ r.body := by
  simp [dataOf]

namespace Assemblies

def lengths (files : Std.ExtTreeMap UInt32 (UInt8 × Bytes)) : Nat :=
  (files.toList.map fun file => file.2.2.length).sum

/-- The bytes are counted, and the buffered files are within the limits. -/
structure Valid (a : Assemblies) : Prop where
  total : a.totalBytes = lengths a.files
  bounded : lengths a.files ≤ maxProductBytes
  few : a.files.size ≤ maxAssemblies

variable {files : Std.ExtTreeMap UInt32 (UInt8 × Bytes)} {id : UInt32} {attrs : UInt8}
  {dt : Bytes}

theorem lengths_of_perm {es : List (UInt32 × UInt8 × Bytes)} (h : files.toList.Perm es) :
    lengths files = (es.map fun f => f.2.2.length).sum :=
  (h.map _).sum_nat

theorem lengths_erase (h : files[id]? = some (attrs, dt)) :
    lengths files = dt.length + lengths (files.erase id) :=
  lengths_of_perm (Std.ExtTreeMap.toList_erase_perm h)

theorem lengths_erase_of_none (h : files[id]? = none) : lengths (files.erase id) = lengths files := by
  rw [Std.ExtTreeMap.erase_eq_self h]

theorem lengths_insert : lengths (files.insert id (attrs, dt)) =
    dt.length + lengths (files.erase id) := by
  have hn : (files.erase id)[id]? = none := by simp
  rw [← Std.ExtTreeMap.insert_erase]
  exact lengths_of_perm (Std.ExtTreeMap.toList_insert_perm hn)

theorem lengths_erase_le : lengths (files.erase id) ≤ lengths files := by
  cases h : files[id]? with
  | none => rw [lengths_erase_of_none h]
  | some f =>
    rw [lengths_erase h]
    omega

variable {self : Assemblies} {flags : UInt8} {bd : Bytes}

theorem checkedSub_add (m n : Nat) : checkedSub (m + n) m = .ok n := by
  simp only [checkedSub, bind_eq_ok, rejectIf_eq_ok, pure_eq_ok]
  exact ⟨(), by omega, by omega⟩

theorem start_eq (h : self.Valid) : self.start id attrs =
    if (self.files.erase id).size = maxAssemblies then
      .error (.decodeError "too many unfinished products")
    else .ok {
      files := self.files.insert id (attrs, [])
      totalBytes := lengths (self.files.erase id) } := by
  have htt : self.totalWithout id = .ok (lengths (self.files.erase id)) := by
    unfold totalWithout
    rw [h.total]
    cases hfl : self.files[id]? with
    | none => rw [lengths_erase_of_none hfl]
    | some f =>
      rw [lengths_erase hfl]
      exact checkedSub_add _ _
  unfold start
  simp only [htt, Std.ExtTreeMap.insert_erase]
  unfold Except.rejectIf
  split <;> rfl

/-- What the fragment is appended to: a start fragment to nothing. -/
def base (self : Assemblies) (flags : UInt8) (id : UInt32) : Option (UInt8 × Bytes) :=
  if flags &&& 4 ≠ 0 then some (flags &&& ~~~0x0e, []) else self.files[id]?

def Excess (self : Assemblies) (flags : UInt8) (id : UInt32) (size : Nat) : Prop :=
  flags &&& 4 ≠ 0 ∧ (self.files.erase id).size = maxAssemblies ∨
    lengths (self.files.erase id) + size > maxProductBytes

def after (self : Assemblies) (flags : UInt8) (id : UInt32) (file : UInt8 × Bytes) : Assemblies :=
  if flags &&& 8 ≠ 0 then
    { files := self.files.erase id, totalBytes := lengths (self.files.erase id) }
  else
    { files := self.files.insert id file
      totalBytes := lengths (self.files.erase id) + file.2.length }

def message (flags : UInt8) (id : UInt32) (file : UInt8 × Bytes) : List ApplicationRecord :=
  if flags &&& 8 ≠ 0 then [.message id file.1 file.2] else []

theorem append_eq (htt : self.totalBytes = lengths (self.files.erase id) + dt.length)
    (hfl : self.files[id]? = some (attrs, dt)) : self.append id flags bd =
      if lengths (self.files.erase id) + (dt ++ bd).length > maxProductBytes then
        .error (.decodeError "product reassembly limit")
      else .ok {
        files := self.files.insert id (attrs ||| flags, dt ++ bd)
        totalBytes := lengths (self.files.erase id) + (dt ++ bd).length } := by
  unfold append Except.rejectIf
  rw [htt, length_append, Nat.add_assoc, hfl]
  split <;> rfl

theorem append_eq_error (hfl : self.files[id]? = none) (fl : UInt8) (b : Bytes) :
    ∃ t, self.append id fl b = .error (.decodeError t) := by
  unfold append Except.rejectIf
  rw [hfl]
  split <;> exact ⟨_, rfl⟩

theorem close_eq (htt : self.totalBytes = lengths (self.files.erase id) + dt.length)
    (hfl : self.files[id]? = some (attrs, dt)) : self.close id =
      .ok ({ files := self.files.erase id, totalBytes := lengths (self.files.erase id) },
        [.message id attrs dt]) := by
  unfold close
  rw [hfl, htt, Nat.add_comm]
  simp only [checkedSub_add]
  rfl

/-- A fragment of a message that is open, as `startIf` leaves it. -/
theorem append_closeIf (htt : self.totalBytes = lengths (self.files.erase id) + dt.length)
    (hfl : self.files[id]? = some (attrs, dt))
    (hle : ¬lengths (self.files.erase id) + (dt ++ bd).length > maxProductBytes) :
    (self.append id (flags &&& ~~~0x0e) bd >>= fun a => a.closeIf flags id) =
      .ok (self.after flags id (attrs ||| (flags &&& ~~~0x0e), dt ++ bd),
        message flags id (attrs ||| (flags &&& ~~~0x0e), dt ++ bd)) := by
  rw [append_eq htt hfl, if_neg hle, ok_bind]
  unfold closeIf after message
  by_cases he : flags &&& 8 ≠ 0
  · rw [if_pos he, if_pos he, if_pos he]
    refine (close_eq ?_ Std.ExtTreeMap.getElem?_insert_self).trans ?_
    · rw [Std.ExtTreeMap.erase_insert]
    · rw [Std.ExtTreeMap.erase_insert]
  · rw [if_neg he, if_neg he, if_neg he]

theorem after_congr {s' : Assemblies} (h : self.files.erase id = s'.files.erase id)
    (f : UInt8 × Bytes) : self.after flags id f = s'.after flags id f := by
  unfold after
  rw [← Std.ExtTreeMap.insert_erase, h, Std.ExtTreeMap.insert_erase]

/-- A fragment is taken if its message has started and no limit is exceeded, and is an error
otherwise. -/
theorem takeFragment_eq (h : self.Valid) (fl : UInt8) (id : UInt32) (b : Bytes) :
    match self.base fl id with
    | none => ∃ t, self.takeFragment fl id b = .error (.decodeError t)
    | some (a, d) =>
      (self.Excess fl id (d ++ b).length →
        ∃ t, self.takeFragment fl id b = .error (.decodeError t)) ∧
      (¬self.Excess fl id (d ++ b).length → self.takeFragment fl id b =
        .ok (self.after fl id (a ||| (fl &&& ~~~0x0e), d ++ b),
          message fl id (a ||| (fl &&& ~~~0x0e), d ++ b))) := by
  unfold base takeFragment startIf Excess
  by_cases hs : fl &&& 4 ≠ 0
  · rw [if_pos hs, if_pos hs, start_eq h]
    by_cases hmn : (self.files.erase id).size = maxAssemblies
    · rw [if_pos hmn]
      exact ⟨fun _ => ⟨_, rfl⟩, fun hno => absurd (.inl ⟨hs, hmn⟩) hno⟩
    · rw [if_neg hmn, ok_bind]
      generalize hst : ({
        files := self.files.insert id (fl &&& ~~~0x0e, [])
        totalBytes := lengths (self.files.erase id) } : Assemblies) = started
      have her : started.files.erase id = self.files.erase id := by
        rw [← hst, Std.ExtTreeMap.erase_insert]
      have htt : started.totalBytes = lengths (started.files.erase id) + ([] : Bytes).length := by
        rw [her, ← hst]
        rfl
      have hfl : started.files[id]? = some (fl &&& ~~~0x0e, []) := by
        rw [← hst]
        exact Std.ExtTreeMap.getElem?_insert_self
      constructor
      · rintro (⟨-, hmn'⟩ | hlr)
        · exact absurd hmn' hmn
        · rw [append_eq htt hfl, her, if_pos hlr]
          exact ⟨_, rfl⟩
      · intro hno
        rw [append_closeIf htt hfl (her ▸ fun hlr => hno (.inr hlr)), after_congr her]
  · rw [if_neg hs, if_neg hs, ok_bind]
    cases hfl : self.files[id]? with
    | none =>
      obtain ⟨t, he⟩ := append_eq_error hfl (fl &&& ~~~0x0e) b
      exact ⟨t, by rw [he]; rfl⟩
    | some f =>
      obtain ⟨a, d⟩ := f
      have htt : self.totalBytes = lengths (self.files.erase id) + d.length := by
        rw [h.total, lengths_erase hfl, Nat.add_comm]
      constructor
      · rintro (⟨hs', -⟩ | hlr)
        · exact absurd hs' hs
        · rw [append_eq htt hfl, if_pos hlr]
          exact ⟨_, rfl⟩
      · intro hno
        exact append_closeIf htt hfl fun hlr => hno (.inr hlr)

theorem size_insert (fs : Std.ExtTreeMap UInt32 (UInt8 × Bytes)) (f : UInt8 × Bytes) :
    (fs.insert id f).size = (fs.erase id).size + 1 := by
  have hn : (fs.erase id)[id]? = none := by simp
  have hpr := Std.ExtTreeMap.toList_insert_perm (v := f) hn
  rw [Std.ExtTreeMap.insert_erase] at hpr
  simpa using hpr.length_eq

/-- While a message is open, one of the at most 64 places is its own. -/
theorem size_erase_lt (h : self.Valid) (hbs : (self.base flags id).isSome)
    (hsz : ¬(flags &&& 4 ≠ 0 ∧ (self.files.erase id).size = maxAssemblies)) :
    (self.files.erase id).size + 1 ≤ maxAssemblies := by
  have hfw := h.few
  by_cases hs : flags &&& 4 ≠ 0
  · have hle : (self.files.erase id).size ≤ self.files.size := Std.ExtTreeMap.size_erase_le
    have hne : (self.files.erase id).size ≠ maxAssemblies := fun heq => hsz ⟨hs, heq⟩
    omega
  · rw [base, if_neg hs] at hbs
    obtain ⟨f, hfl⟩ := isSome_iff_exists.1 hbs
    have hl := (Std.ExtTreeMap.toList_erase_perm hfl).length_eq
    simp only [Std.ExtTreeMap.length_toList, length_cons] at hl
    omega

theorem valid_after (h : self.Valid) (hbs : self.base flags id = some (attrs, dt))
    (hno : ¬self.Excess flags id (dt ++ bd).length) {f : UInt8 × Bytes}
    (hfl : f.2 = dt ++ bd) : (self.after flags id f).Valid := by
  obtain ⟨hsz, hln⟩ := not_or.1 hno
  unfold after
  by_cases he : flags &&& 8 ≠ 0
  · rw [if_pos he]
    exact ⟨rfl, lengths_erase_le.trans h.bounded, Std.ExtTreeMap.size_erase_le.trans h.few⟩
  · rw [if_neg he]
    refine ⟨?_, ?_, ?_⟩
    · rw [lengths_insert, Nat.add_comm]
    · rw [lengths_insert, hfl]
      omega
    · rw [size_insert]
      exact size_erase_lt h (by rw [hbs]; rfl) hsz

theorem valid_takeRecord (h : self.Valid) (raw : Bytes) :
    (∀ f, self.takeRecord raw = .error f → f ≠ .panic) ∧
      ∀ next out, self.takeRecord raw = .ok (next, out) → next.Valid := by
  unfold takeRecord
  by_cases hcn : raw.getD 3 0 &&& 2 ≠ 0
  · simp only [if_pos hcn]
    refine ⟨nofun, ?_⟩
    rintro next out ⟨⟩
    exact h
  · simp only [if_neg hcn]
    generalize raw.getD 3 0 = flags
    generalize UInt32.ofNat (leNat (between raw 4 8)) = id
    have hsp := takeFragment_eq h flags id (raw.drop 8)
    have hfl : (∃ t, self.takeFragment flags id (raw.drop 8) = .error (.decodeError t)) →
        (∀ f, self.takeFragment flags id (raw.drop 8) = .error f → f ≠ .panic) ∧
          ∀ next out, self.takeFragment flags id (raw.drop 8) = .ok (next, out) → next.Valid := by
      rintro ⟨t, he⟩
      rw [he]
      refine ⟨?_, nofun⟩
      rintro f ⟨⟩
      exact nofun
    cases hbs : self.base flags id with
    | none =>
      rw [hbs] at hsp
      exact hfl hsp
    | some fl =>
      rw [hbs] at hsp
      by_cases hes : self.Excess flags id (fl.2 ++ raw.drop 8).length
      · exact hfl (hsp.1 hes)
      · rw [hsp.2 hes]
        refine ⟨nofun, ?_⟩
        rintro next out ⟨⟩
        exact valid_after h hbs hes rfl

/-- The assemblies are the messages of the history that have not ended. -/
def Represents (self : Assemblies) (history : List WireRecord) : Prop :=
  ∀ id, self.files[id]? = (openMessage history id).map fun fragments =>
    (attributesOf fragments, dataOf fragments)

variable {hist : List WireRecord} {r : WireRecord}

theorem Represents.erase_perm (h : self.Represents hist) (id : UInt32) :
    (self.files.erase id).toList.Perm ((otherIds hist id).map fun o =>
      (o, (openMessage hist o).elim (0, []) fun fs => (attributesOf fs, dataOf fs))) := by
  refine (perm_ext_iff_of_nodup Std.ExtTreeMap.nodup_toList
    (nodup_otherIds.map fun _ _ heq => congrArg Prod.fst heq)).2 ?_
  rintro ⟨o, f⟩
  rw [Std.ExtTreeMap.mem_toList_iff_getElem?_eq_some, Std.ExtTreeMap.getElem?_erase, h o,
    List.mem_map]
  constructor
  · intro hfl
    split at hfl
    · exact nomatch hfl
    · next hne =>
      obtain ⟨fs, hop, rfl⟩ := map_eq_some_iff.1 hfl
      have ho : o ≠ id := fun heq => hne (heq ▸ Std.ReflCmp.compare_self)
      exact ⟨o, mem_otherIds.2 ⟨ho, by rw [hop]; rfl⟩, by rw [hop]; rfl⟩
  · rintro ⟨o', hm, heq⟩
    obtain ⟨rfl, rfl⟩ := Prod.mk.inj heq
    obtain ⟨ho, hop⟩ := mem_otherIds.1 hm
    obtain ⟨fs, hfr⟩ := isSome_iff_exists.1 hop
    have hne : compare id o' ≠ .eq := fun heq => ho (Std.LawfulEqCmp.eq_of_compare heq).symm
    rw [if_neg hne, hfr]
    rfl

theorem Represents.size_erase (h : self.Represents hist) (id : UInt32) :
    (self.files.erase id).size = (otherIds hist id).length := by
  rw [← Std.ExtTreeMap.length_toList, (h.erase_perm id).length_eq, length_map]

theorem Represents.lengths_erase (h : self.Represents hist) (id : UInt32) :
    lengths (self.files.erase id) = ((otherIds hist id).map (openLength hist)).sum := by
  rw [lengths_of_perm (h.erase_perm id), List.map_map]
  congr 1
  refine map_congr_left fun o _ => ?_
  rw [Function.comp_apply, openLength]
  cases openMessage hist o with
  | none => rfl
  | some fs => rfl

theorem isStart_iff : r.isStart ↔ r.flags &&& 4 ≠ 0 := decide_eq_true_iff

theorem isEnd_iff : r.isEnd ↔ r.flags &&& 8 ≠ 0 := decide_eq_true_iff

/-- A fragment has something to be appended to if it is a start or its message is open. What comes out
is the message since its most recent start. -/
theorem Represents.base_of_open (h : self.Represents hist) (hr : r.isControl = false)
    (hop : r.isStart ∨ (openMessage hist r.id).isSome) : ∃ f fs, self.base r.flags r.id = some f ∧
    sinceStart (hist ++ [r]) r.id = some fs ∧
      (f.1 ||| r.attributes, f.2 ++ r.body) = (attributesOf fs, dataOf fs) ∧
      f.2.length = if r.isStart then 0 else openLength hist r.id := by
  rw [sinceStart_fragment hr]
  by_cases hs : r.isStart
  · refine ⟨(r.attributes, []), [r], ?_, if_pos hs, ?_, (if_pos hs).symm⟩
    · rw [base, if_pos (isStart_iff.1 hs)]
      rfl
    · simp [attributesOf, dataOf]
  · obtain ⟨fs, hfr⟩ := isSome_iff_exists.1 (hop.resolve_left hs)
    refine ⟨(attributesOf fs, dataOf fs), fs ++ [r], ?_, ?_, ?_, ?_⟩
    · rw [base, if_neg (isStart_iff.not.1 hs), h r.id, hfr]
      rfl
    · rw [if_neg hs, sinceStart_of_open hfr]
      rfl
    · rw [attributesOf_concat, dataOf_concat]
    · rw [if_neg hs, openLength, hfr]
      rfl

theorem Represents.base_of_not_open (h : self.Represents hist)
    (hop : ¬(r.isStart ∨ (openMessage hist r.id).isSome)) : self.base r.flags r.id = none := by
  obtain ⟨hs, hn⟩ := not_or.1 hop
  rw [base, if_neg (isStart_iff.not.1 hs), h r.id, not_isSome_iff_eq_none.1 hn]
  rfl

theorem Represents.excess_iff (h : self.Represents hist) (hv : self.Valid) {n : Nat}
    (hbs : (self.base r.flags r.id).isSome) : ¬self.Excess r.flags r.id n ↔
      (otherIds hist r.id).length + 1 ≤ maxAssemblies ∧
        ((otherIds hist r.id).map (openLength hist)).sum + n ≤ maxProductBytes := by
  rw [← h.size_erase, ← h.lengths_erase, Excess, not_or, Nat.not_lt]
  refine and_congr_left fun _ => ⟨fun hsz => size_erase_lt hv hbs hsz, ?_⟩
  rintro hle ⟨-, heq⟩
  omega

theorem Represents.after (h : self.Represents hist) (hr : r.isControl = false)
    (hop : r.isStart ∨ (openMessage hist r.id).isSome) {fs : List WireRecord}
    (hsn : sinceStart (hist ++ [r]) r.id = some fs) :
    (self.after r.flags r.id (attributesOf fs, dataOf fs)).Represents (hist ++ [r]) := by
  intro o
  by_cases ho : r.id = o
  · subst ho
    unfold Assemblies.after
    by_cases he : r.isEnd
    · rw [if_pos (isEnd_iff.1 he), openMessage_of_end hr he]
      simp
    · have hop' : openMessage (hist ++ [r]) r.id = some fs := by
        have he' : r.isEnd = false := by simpa using he
        rw [← hsn, sinceStart_fragment hr]
        by_cases hs : r.isStart
        · rw [openMessage_of_start hr he' hs, if_pos hs]
        · rw [openMessage_of_middle hr he' (by simpa using hs), if_neg hs]
          obtain ⟨b, hbf⟩ := isSome_iff_exists.1 (hop.resolve_left hs)
          rw [hbf, sinceStart_of_open hbf]
      rw [if_neg (isEnd_iff.not.1 he), hop']
      simp
  · have hne : compare r.id o ≠ .eq := fun heq => ho (Std.LawfulEqCmp.eq_of_compare heq)
    rw [openMessage_of_other fun hsm => ho hsm.2, ← h o]
    unfold Assemblies.after
    split
    · exact Std.ExtTreeMap.getElem?_erase.trans (if_neg hne)
    · exact Std.ExtTreeMap.getElem?_insert.trans (if_neg hne)

theorem message_eq_delivered (hr : r.isControl = false) {fs : List WireRecord}
    (hsn : sinceStart (hist ++ [r]) r.id = some fs) :
    message r.flags r.id (attributesOf fs, dataOf fs) = delivered hist r := by
  unfold message delivered
  rw [hr, if_neg Bool.false_ne_true, hsn]
  by_cases he : r.isEnd
  · rw [if_pos (isEnd_iff.1 he), if_pos he]
    rfl
  · rw [if_neg (isEnd_iff.not.1 he), if_neg he]

end Assemblies

namespace WireRecord

variable (r : WireRecord)

theorem between_length (m : Bytes) :
    between ([1] ++ leBytes 2 (8 + r.body.length) ++ m) 1 3 = leBytes 2 (8 + r.body.length) := by
  simp [between]

theorem complete_encode : applicationFormat.Complete r.encode := by
  have hv : leNat (leBytes 2 (8 + r.body.length)) = 8 + r.body.length := by
    refine leNat_leBytes ?_
    have hft := r.fits
    omega
  have hbt : between r.encode 1 3 = leBytes 2 (8 + r.body.length) := by
    unfold encode
    rw [append_assoc, append_assoc, between_length]
  have hf : r.encode.take 1 = [1] := rfl
  have hl : r.encode.length = 8 + r.body.length := by
    simp only [encode, length_append, length_cons, length_nil, length_leBytes]
  simp only [Chunked.Format.Complete, applicationFormat, applicationLength, bind_eq_ok, pure_eq_ok,
    hbt, hv, hf, hl]
  exact ⟨(), by simp, trivial⟩

theorem takeRecord_encode (s : Assemblies) : s.takeRecord r.encode =
    if r.isControl then .ok (s, [.control r.id r.body])
    else s.takeFragment r.flags r.id r.body := by
  have hfl : r.encode.getD 3 0 = r.flags := by simp [encode]
  have hid : .ofNat (leNat (between r.encode 4 8)) = r.id := by
    have hbt : between r.encode 4 8 = leBytes 4 r.id.toNat := by simp [between, encode, leBytes_two]
    rw [hbt, leNat_leBytes r.id.toNat_lt, UInt32.ofNat_toNat]
  have hbd : r.encode.drop 8 = r.body := by simp [encode, leBytes_two]
  unfold Assemblies.takeRecord isControl
  simp only [hfl, hid, hbd, decide_eq_true_eq]

end WireRecord

namespace Assemblies

variable {self : Assemblies} {hist : List WireRecord} {r : WireRecord}

theorem Represents.takeRecord (h : self.Represents hist) (hv : self.Valid) (had : Admits hist r) :
    ∃ next : Assemblies, self.takeRecord r.encode = .ok (next, delivered hist r) ∧ next.Valid ∧
      next.Represents (hist ++ [r]) := by
  rw [r.takeRecord_encode]
  by_cases hr : r.isControl
  · refine ⟨self, ?_, hv, ?_⟩
    · rw [if_pos hr, delivered, if_pos hr]
    · intro id
      rw [openMessage_of_other (by simp [hr])]
      exact h id
  · obtain ⟨hop, hlm⟩ := had.resolve_left hr
    have hr' : r.isControl = false := by simpa using hr
    obtain ⟨f, fs, hbs, hsn, hfl, hl⟩ := h.base_of_open hr' hop
    have hes : ¬self.Excess r.flags r.id (f.2 ++ r.body).length := by
      rw [h.excess_iff hv (by rw [hbs]; rfl), length_append, hl, ← Nat.add_assoc]
      exact hlm
    have hsp := takeFragment_eq hv r.flags r.id r.body
    rw [hbs] at hsp
    have htk := hsp.2 hes
    have hdt := (Prod.mk.inj hfl).2
    rw [← WireRecord.attributes, hfl] at htk
    rw [if_neg hr, htk, message_eq_delivered hr' hsn]
    exact ⟨_, rfl, valid_after hv hbs hes hdt.symm, h.after hr' hop hsn⟩

theorem Represents.takeRecord_error (h : self.Represents hist) (hv : self.Valid)
    (had : ¬Admits hist r) : ∃ t, self.takeRecord r.encode = .error (.decodeError t) := by
  obtain ⟨hr, hnt⟩ := not_or.1 had
  rw [r.takeRecord_encode, if_neg hr]
  have hsp := takeFragment_eq hv r.flags r.id r.body
  by_cases hop : r.isStart ∨ (openMessage hist r.id).isSome
  · have hr' : r.isControl = false := by simpa using hr
    obtain ⟨f, fs, hbs, -, -, hl⟩ := h.base_of_open hr' hop
    rw [hbs] at hsp
    refine hsp.1 (Classical.not_not.1 fun hes => hnt ⟨hop, ?_⟩)
    rw [h.excess_iff hv (by rw [hbs]; rfl), length_append, hl, ← Nat.add_assoc] at hes
    exact hes
  · rw [h.base_of_not_open hop] at hsp
    exact hsp

theorem Represents.finishAll {hs : List WireRecord} {s : Assemblies}
    (h : s.Represents hs) (hv : s.Valid)
    (rs : List WireRecord) (out : List ApplicationRecord) : (Admitted hs rs → ∃ next : Assemblies,
      Format.finishAll Assemblies.takeRecord s (rs.map (·.encode)) out =
        .ok (next, out ++ deliveredAll hs rs)) ∧ (¬Admitted hs rs → ∃ t,
      Format.finishAll Assemblies.takeRecord s (rs.map (·.encode)) out =
        .error (.decodeError t)) := by
  induction rs generalizing s hs out with
  | nil =>
    refine ⟨fun _ => ⟨s, ?_⟩, fun hnt => absurd trivial hnt⟩
    rw [deliveredAll, append_nil]
    rfl
  | cons r rs ih =>
    rw [map_cons, Format.finishAll, deliveredAll]
    by_cases had : Admits hs r
    · obtain ⟨next, htk, hvl, hrp⟩ := h.takeRecord hv had
      obtain ⟨hok, he⟩ := ih hrp hvl (out ++ delivered hs r)
      rw [htk]
      refine ⟨fun hal => ?_, fun hnt => he fun hr => hnt ⟨had, hr⟩⟩
      obtain ⟨l, hl⟩ := hok hal.2
      exact ⟨l, hl.trans (by rw [append_assoc])⟩
    · obtain ⟨t, htk⟩ := h.takeRecord_error hv had
      rw [htk]
      exact ⟨fun hal => absurd hal.1 had, fun _ => ⟨t, rfl⟩⟩

end Assemblies

namespace ApplicationStream

theorem valid_initial : applicationDecoder.initial.Valid := ⟨rfl, Nat.zero_le _, Nat.zero_le _⟩

theorem valid_feed {sl : ApplicationStream} (h : sl.state.Valid) (bs : Bytes) :
    (sl.feed bs).1.state.Valid ∧ (sl.feed bs).2 ≠ .error .panic := by
  have hfd : (sl.feed bs).1.state.Valid ∧ ∀ f, (sl.feed bs).2 = .error f → f ≠ .panic := by
    refine Decoder.feed_inv ?_ ?_ ?_ valid_initial nofun nofun h
    · intro buf f hl
      change applicationLength buf = .error f at hl
      dsimp only [applicationLength, Except.rejectIf] at hl
      split at hl
      · cases hl
        exact nofun
      · exact nomatch hl
    · intro s raw f hs
      exact (Assemblies.valid_takeRecord hs raw).1 f
    · intro s raw next out hs
      exact (Assemblies.valid_takeRecord hs raw).2 next out
  exact ⟨hfd.1, fun he => hfd.2 _ he rfl⟩

theorem valid_of_reachable {s : ApplicationStream} (h : applicationDecoder.Reachable s) :
    s.state.Valid := by
  induction h with
  | start => exact valid_initial
  | feed bs _ ih => exact (valid_feed ih bs).1
  | reset _ _ => exact valid_initial

theorem feedAll_records {rs : List WireRecord} {chs : List Bytes}
    (h : applicationDecoder.Cuts (rs.flatMap (·.encode)) chs) :
    (Admitted [] rs → ∃ os : List (List ApplicationRecord),
      (applicationDecoder.feedAll new chs).2 = os.map .ok ∧ os.flatten = deliveredAll [] rs) ∧
    (¬Admitted [] rs → ∃ t, .error (.decodeError t) ∈ (applicationDecoder.feedAll new chs).2) := by
  have hcm : ∀ rec ∈ rs.map (·.encode), applicationFormat.Complete rec := by
    intro rec hrc
    obtain ⟨r, -, rfl⟩ := List.mem_map.1 hrc
    exact r.complete_encode
  have hps : applicationDecoder.format.pushAll applicationDecoder.finish new.buffer new.state
      ((rs.map (·.encode)).flatten ++ []) [] = _ :=
    Format.pushAll_flatten hcm applicationFormat.empty.incomplete
  have hr := Decoder.feedAll_eq (D := applicationDecoder) (d := new) rfl h.bounded
  rw [append_nil, ← flatMap_def, ← h.flatten] at hps
  have hrp : new.state.Represents [] := fun id => by
    change (∅)[id]? = _
    rfl
  obtain ⟨hok, he⟩ := hrp.finishAll valid_initial rs []
  constructor
  · intro had
    obtain ⟨next, hfn⟩ := hok had
    rw [hps, show Format.finishAll applicationDecoder.finish new.state _ _ = _ from hfn] at hr
    obtain ⟨os, hal, hfl⟩ := hr
    exact ⟨os, congrArg Prod.snd hal, hfl⟩
  · intro hnt
    obtain ⟨t, hfn⟩ := he hnt
    rw [hps, show Format.finishAll applicationDecoder.finish new.state _ _ = _ from hfn] at hr
    exact ⟨t, hr.2⟩

/-- However the records of a connection are cut into chunks, what they deliver comes out in order,
or there is an error if one of them may not follow the others. In every state that can be reached
the total is the sum of the lengths of the open messages, within the limits, and no call panics.
After an error nothing comes out until the stream is reset. -/
theorem reassembly_exact :
    (∀ (records : List WireRecord) (chunks : List Bytes),
      applicationDecoder.Cuts (records.flatMap (·.encode)) chunks →
      (Admitted [] records → ∃ outs : List (List ApplicationRecord),
        (applicationDecoder.feedAll new chunks).2 = outs.map .ok ∧
          outs.flatten = deliveredAll [] records) ∧
      (¬Admitted [] records → ∃ text,
        .error (.decodeError text) ∈ (applicationDecoder.feedAll new chunks).2)) ∧
    (∀ (bytes : Bytes) (chunks chunks' : List Bytes), applicationDecoder.Cuts bytes chunks →
      applicationDecoder.Cuts bytes chunks' →
      (∃ fault, .error fault ∈ (applicationDecoder.feedAll new chunks).2 ∧
        .error fault ∈ (applicationDecoder.feedAll new chunks').2) ∨
      ∃ outs outs' : List (List ApplicationRecord),
        (applicationDecoder.feedAll new chunks).2 = outs.map .ok ∧
        (applicationDecoder.feedAll new chunks').2 = outs'.map .ok ∧ outs.flatten = outs'.flatten ∧
        (applicationDecoder.feedAll new chunks).1 = (applicationDecoder.feedAll new chunks').1) ∧
    (∀ self : ApplicationStream, applicationDecoder.Reachable self →
      self.state.totalBytes = Assemblies.lengths self.state.files ∧
      self.state.totalBytes ≤ maxProductBytes ∧ self.state.files.size ≤ maxAssemblies ∧
      ∀ bytes, (self.feed bytes).2 ≠ .error .panic) ∧
    ∀ (self : ApplicationStream) (bytes : Bytes) (fault : Fault),
      (self.feed bytes).2 = .error fault → ∀ between after : List Bytes,
        (∀ result ∈ (applicationDecoder.feedAll (self.feed bytes).1 between).2,
          ∃ text, result = .error (.decodeError text)) ∧
        applicationDecoder.feedAll (applicationDecoder.feedAll (self.feed bytes).1 between).1.reset
          after = applicationDecoder.feedAll new after := by
  refine ⟨fun records chunks => feedAll_records, fun bytes chunks chunks' => Decoder.feedAll_cuts rfl,
    ?_, ?_⟩
  · intro self hrc
    have hv := valid_of_reachable hrc
    exact ⟨hv.total, hv.total ▸ hv.bounded, hv.few, fun bytes => (valid_feed hv bytes).2⟩
  · intro self bytes fault he between after
    have hfl : (self.feed bytes).1.failed := Decoder.failed_of_error he
    refine ⟨?_, rfl⟩
    rw [Decoder.feedAll_of_failed hfl]
    intro result hr
    obtain ⟨-, -, rfl⟩ := List.mem_map.1 hr
    exact ⟨_, rfl⟩

/-- Two messages whose fragments are interleaved, cut within a fragment. -/
theorem reassembly_exact_interleaved :
    Admitted [] [⟨4, 10, [97], by decide⟩, ⟨0x1c, 11, [98], by decide⟩, ⟨8, 10, [99], by decide⟩] ∧
    ∃ outs : List (List ApplicationRecord),
      (applicationDecoder.feedAll new [[1, 9, 0, 4, 10, 0, 0],
        [0, 97, 1, 9, 0, 0x1c, 11, 0, 0, 0, 98, 1, 9, 0, 8, 10, 0, 0, 0, 99]]).2 = outs.map .ok ∧
      outs.flatten = [.message 11 0x10 [98], .message 10 0 [97, 99]] := by
  have had : Admitted []
      [⟨4, 10, [97], by decide⟩, ⟨0x1c, 11, [98], by decide⟩, ⟨8, 10, [99], by decide⟩] := by
    decide +kernel
  refine ⟨had, ?_⟩
  exact (reassembly_exact.1 _ _ ⟨by decide +kernel, by decide +kernel⟩).1 had

end ApplicationStream

end Aerobag.Receiver
