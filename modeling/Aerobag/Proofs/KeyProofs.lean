import Aerobag.Key

/-!
# Components can be read back

A byte is encoded as itself or as an escape, and the two are told apart by the percent sign. An encoded
component has no slash, so that a key can be cut at its slashes.
-/

open List

namespace Aerobag.Key

/-- Unreserved characters and escapes of two upper-case digits. -/
inductive Escaped : List Char → Prop where
  | nil : Escaped []
  | plain {ch rest} (h : isUnreserved ch) (hrest : Escaped rest) : Escaped (ch :: rest)
  | escape {high low rest} (hhigh : high ∈ "0123456789ABCDEF".toList)
      (hlow : low ∈ "0123456789ABCDEF".toList) (hrest : Escaped rest) :
      Escaped ('%' :: high :: low :: rest)

theorem hexDigit_spec : ∀ n < 16, hexDigit (.ofNat n) ∈ "0123456789ABCDEF".toList ∧
    ∃ d, String.utf8EncodeChar (hexDigit (.ofNat n)) = [d] ∧ hexValue d = .ok (.ofNat n) := by
  have hal : ∀ n < 16, hexDigit (.ofNat n) ∈ "0123456789ABCDEF".toList ∧
      (String.utf8EncodeChar (hexDigit (.ofNat n))).map hexValue = [.ok (.ofNat n)] := by decide
  intro n hn
  obtain ⟨hm, he⟩ := hal n hn
  obtain ⟨d, hd, hv⟩ := map_eq_singleton_iff.1 he
  exact ⟨hm, d, hd, hv⟩

theorem encodeByte_cases (b : UInt8) :
    (∃ c, encodeByte b = [c] ∧ isUnreserved c ∧ String.utf8EncodeChar c = [b] ∧ b ≠ 37) ∨
    ∃ m < 16, ∃ n < 16, encodeByte b = ['%', hexDigit (.ofNat m), hexDigit (.ofNat n)] ∧
      (UInt8.ofNat m <<< 4 ||| UInt8.ofNat n) = b := by
  have hal : ∀ k < 256, if isUnreserved (Char.ofNat k) then
      String.utf8EncodeChar (Char.ofNat k) = [.ofNat k] ∧ k ≠ 37 else
      UInt8.ofNat k >>> 4 = .ofNat (k / 16) ∧ UInt8.ofNat k &&& 0x0f = .ofNat (k % 16) ∧
        (UInt8.ofNat (k / 16) <<< 4 ||| UInt8.ofNat (k % 16)) = .ofNat k := by decide +kernel
  have hb := hal b.toNat b.toNat_lt
  have hlt := b.toNat_lt
  simp only [UInt8.ofNat_toNat] at hb
  split_ifs at hb with hun
  · exact .inl ⟨_, if_pos hun, hun, hb.1, fun h => hb.2 (by rw [h]; rfl)⟩
  · obtain ⟨hhi, hlo, heq⟩ := hb
    exact .inr ⟨b.toNat / 16, by omega, b.toNat % 16, by omega, by rw [← hhi, ← hlo]; exact if_neg hun, heq⟩

theorem escaped_encodeByte (b : UInt8) {cs : List Char} (h : Escaped cs) :
    Escaped (encodeByte b ++ cs) := by
  obtain ⟨c, he, hun, -⟩ | ⟨m, hm, n, hn, he, -⟩ := encodeByte_cases b
  · rw [he]
    exact .plain hun h
  · rw [he]
    exact .escape (hexDigit_spec m hm).1 (hexDigit_spec n hn).1 h

theorem decodeBytes_encodeByte (b : UInt8) (r : Bytes) :
    decodeBytes ((encodeByte b).flatMap String.utf8EncodeChar ++ r) = (b :: ·) <$> decodeBytes r := by
  obtain ⟨c, he, -, hc, hne⟩ | ⟨m, hm, n, hn, he, hb⟩ := encodeByte_cases b
  · rw [he, flatMap_singleton, hc, singleton_append, decodeBytes.eq_def]
    exact if_neg hne
  · obtain ⟨-, d, hd, hv⟩ := hexDigit_spec m hm
    obtain ⟨-, d', hd', hv'⟩ := hexDigit_spec n hn
    have hp : String.utf8EncodeChar '%' = [37] := by decide
    rw [he, ← hb]
    simp only [flatMap_cons, flatMap_nil, hp, hd, hd', cons_append, nil_append, decodeBytes, if_true,
      hv, hv']
    rfl

variable {bs : Bytes}

theorem escaped_percentEncodeComponent : Escaped (percentEncodeComponent bs).toList := by
  rw [percentEncodeComponent, String.toList_ofList]
  induction bs with
  | nil => exact .nil
  | cons b bs ih => exact escaped_encodeByte b ih

theorem slash_notMem {cs : List Char} (h : Escaped cs) : '/' ∉ cs := by
  have hd : '/' ∉ "0123456789ABCDEF".toList := by decide
  induction h with
  | nil => simp
  | plain hun _ ih =>
    rintro (_ | ⟨_, hm⟩)
    · exact absurd hun (by decide)
    · exact ih hm
  | escape hh hl _ ih =>
    simp only [mem_cons, not_or]
    exact ⟨by decide, ne_of_mem_of_not_mem hh hd |>.symm, ne_of_mem_of_not_mem hl hd |>.symm, ih⟩

theorem decodeBytes_percentEncodeComponent :
    decodeBytes (strBytes (percentEncodeComponent bs)) = .ok bs := by
  rw [strBytes_eq_flatMap, percentEncodeComponent, String.toList_ofList]
  induction bs with
  | nil => rfl
  | cons b bs ih =>
    rw [flatMap_cons, flatMap_append, decodeBytes_encodeByte, ih]
    rfl

theorem toList_percentEncodeComponent_injective :
    Function.Injective fun s : String => (percentEncodeComponent (strBytes s)).toList := by
  intro s t h
  have hd := congrArg (decodeBytes ∘ strBytes) (String.toList_inj.1 h)
  simp only [Function.comp_apply, decodeBytes_percentEncodeComponent] at hd
  exact strBytes_injective (Except.ok.inj hd)

theorem splitOn_ofParts (v : String) (vs : List String) : (ofParts v vs).toList.splitOn '/' =
    ((v :: vs).map Text.trim).map fun s => (percentEncodeComponent (strBytes s)).toList := by
  rw [ofParts, String.toList_intercalate, map_map, map_map]
  exact splitOn_intercalate _
    (forall_mem_map.2 fun s _ => slash_notMem escaped_percentEncodeComponent) (by simp)

/-- A component has no characters but unreserved ones and escapes, decoding gives back the trimmed value,
and the trimmed parts of a key can be told from it. -/
theorem components_reversible (utf8Error : Bytes → String) :
    (∀ s, Escaped (component s).toList ∧ '/' ∉ (component s).toList ∧
      decodeComponent utf8Error (component s) = .ok (Text.trim s)) ∧
    (∀ s t, component s = component t ↔ Text.trim s = Text.trim t) ∧
    ∀ first parts first' parts', ofParts first parts = ofParts first' parts' ↔
      (first :: parts).map Text.trim = (first' :: parts').map Text.trim := by
  refine ⟨fun s => ⟨escaped_percentEncodeComponent, slash_notMem escaped_percentEncodeComponent, ?_⟩,
    fun s t => ⟨fun h => ?_, fun h => ?_⟩, fun v vs w ws => ⟨fun h => ?_, fun h => ?_⟩⟩
  · rw [decodeComponent, component, decodeBytes_percentEncodeComponent]
    simp only [bind, Except.bind, fromUTF8?_strBytes]
  · exact toList_percentEncodeComponent_injective (congrArg String.toList h)
  · rw [component, component, h]
  · refine map_injective_iff.2 toList_percentEncodeComponent_injective ?_
    rw [← splitOn_ofParts, h, splitOn_ofParts]
  · have hsp := splitOn_ofParts v vs
    rw [h, ← splitOn_ofParts] at hsp
    have hjn := congrArg (['/'].intercalate ·) hsp
    simpa only [intercalate_splitOn, String.toList_inj] using hjn

end Aerobag.Key
