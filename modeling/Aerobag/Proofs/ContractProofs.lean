import Aerobag.Contract
import Aerobag.Lib.Text

/-!
# Encodings that can be read in one way

What a request signs is a text of lines. The data that is authenticated with an encrypted value has the
lengths of its parts in it.
-/

open List Except

namespace Aerobag

variable {a a' : AcsRequestAuthentication} {m m' : AcsHttpMethod} {tg t' : String}
  {bs : Bytes}

def AcsRequestAuthentication.lines (auth : AcsRequestAuthentication) (method : AcsHttpMethod)
    (target : String) : List String :=
  [acsContractId, method.asStr, target, auth.accountLocator, auth.signingKeyId,
    toString auth.timestampEpochMs, auth.nonceBase64url, auth.bodySha256]

theorem newline_notMem {s : String} (h : containsAny s ['\r', '\n'] = false) : '\n' ∉ s.toList := by
  intro hm
  simp only [containsAny, any_eq_false] at h
  exact h _ hm rfl

theorem newline_notMem_toString (i : Int) : '\n' ∉ (toString i).toList := by
  have hd (n : Nat) : '\n' ∉ n.repr.toList := fun hm => absurd (Text.isDigit_of_mem_repr hm) (by decide)
  rw [Int.toString_eq_repr, Int.repr_eq_if]
  split
  · exact hd _
  · rw [String.toList_append, mem_append]
    exact not_or.2 ⟨by decide, hd _⟩

theorem signingBytes_eq_ok (h : a.signingBytes m tg = .ok bs) :
    bs = strBytes (String.ofList ((a.lines m tg).flatMap fun l => l.toList ++ ['\n'])) ∧
      ∀ l ∈ a.lines m tg, '\n' ∉ l.toList := by
  rw [AcsRequestAuthentication.signingBytes] at h
  split_ifs at h with hid htg hfl
  obtain rfl := Except.ok.inj h
  simp only [Bool.not_eq_true, any_cons, Bool.or_eq_false_iff] at htg hfl
  obtain ⟨⟨-, hac⟩, ⟨-, hk⟩, ⟨-, hn⟩, ⟨-, hb⟩, -⟩ := hfl
  constructor
  · congr 1
    rw [← String.toList_inj]
    simp [AcsRequestAuthentication.lines]
  · simp only [AcsRequestAuthentication.lines, forall_mem_cons]
    exact ⟨by decide, by cases m <;> decide, newline_notMem htg.2, newline_notMem hac,
      newline_notMem hk, newline_notMem_toString _, newline_notMem hn, newline_notMem hb, by simp⟩

theorem lines_inj {ls ls' : List String} (h : ∀ l ∈ ls, '\n' ∉ l.toList)
    (h' : ∀ l ∈ ls', '\n' ∉ l.toList) (heq : (ls.flatMap fun l => l.toList ++ ['\n']) =
      ls'.flatMap fun l => l.toList ++ ['\n']) : ls = ls' := by
  refine flatMap_inj_of_code (fun x hx y hy r r' hxy => ?_) (by simp) heq
  simp only [append_assoc] at hxy
  obtain ⟨hl, hr⟩ := append_cons_inj (h x hx) (h' y hy) hxy
  exact ⟨String.toList_inj.1 hl, hr⟩

theorem signingBytes_inj (h : a.signingBytes m tg = .ok bs) (h' : a'.signingBytes m' t' = .ok bs) :
    a.lines m tg = a'.lines m' t' := by
  obtain ⟨rfl, hn⟩ := signingBytes_eq_ok h
  obtain ⟨heq, hn'⟩ := signingBytes_eq_ok h'
  exact lines_inj hn hn' (String.ofList_injective (strBytes_injective heq))

theorem framed_inj {s t : String} {r r' : Bytes} (hs : s.utf8ByteSize < 2 ^ 32)
    (ht : t.utf8ByteSize < 2 ^ 32) (h : u32BeBytes s.utf8ByteSize ++ (strBytes s ++ r) =
      u32BeBytes t.utf8ByteSize ++ (strBytes t ++ r')) : s = t ∧ r = r' := by
  have hbe n : u32BeBytes n = beBytes 4 n := by simp [u32BeBytes, beBytes, range_succ]
  obtain ⟨hl, hr⟩ := append_inj h rfl
  rw [hbe, hbe] at hl
  have hln : s.utf8ByteSize = t.utf8ByteSize := beBytes_inj (by simpa using hs) (by simpa using ht) hl
  obtain ⟨hst, hr⟩ := append_inj hr hln
  exact ⟨strBytes_injective hst, hr⟩

variable {k k' : AcsEncryptedValueKind} {vi vi' hash : String}
  {cs c' : List String}

theorem associatedData_inj (hs : ∀ s ∈ vi :: cs, s.utf8ByteSize < 2 ^ 32)
    (hs' : ∀ s ∈ vi' :: c', s.utf8ByteSize < 2 ^ 32)
    (h : acsEncryptedValueAssociatedData k vi cs = .ok bs)
    (h' : acsEncryptedValueAssociatedData k' vi' c' = .ok bs) : k = k' ∧ vi = vi' ∧ cs = c' := by
  rw [forall_mem_cons] at hs hs'
  simp only [acsEncryptedValueAssociatedData, bind_eq_ok, pure_eq_ok] at h h'
  obtain ⟨-, -, -, -, rfl⟩ := h
  obtain ⟨-, -, -, -, heq⟩ := h'
  simp only [append_assoc] at heq
  have hr := append_cancel_left (append_cancel_left heq)
  obtain rfl : k' = k := by cases k <;> cases k' <;> first | rfl | cases hr
  obtain ⟨rfl, hch⟩ := framed_inj hs'.1 hs.1 (append_cancel_left (append_cancel_left hr))
  obtain ⟨-, hch⟩ := append_inj hch rfl
  refine ⟨rfl, rfl, (flatMap_inj_of_code (fun x hx y hy r r' hxy => ?_) ?_ hch).symm⟩
  · exact framed_inj (hs'.2 x hx) (hs.2 y hy) hxy
  · simp [u32BeBytes]

/-- The messages that `authenticated_hash` takes the SHA-256 of. -/
def AcsEncryptedValue.messages (P : Primitives) (value : AcsEncryptedValue)
    (kind : AcsEncryptedValueKind) (valueId : String) : List Bytes :=
  (value.ciphertext P).toOption.toList ++
    ((acsEncryptedValueAssociatedData kind valueId value.childObjectIds).toOption.map fun data =>
      data ++ strBytes value.ciphertextSha256).toList

theorem AcsEncryptedValue.authenticatedHash_eq_ok {P : Primitives} {v : AcsEncryptedValue}
    (h : v.authenticatedHash P k vi = .ok hash) : ∃ ct aad, v.ciphertext P = .ok ct ∧
      acsEncryptedValueAssociatedData k vi v.childObjectIds = .ok aad ∧
      v.ciphertextSha256 = P.sha256Hex ct ∧
      hash = P.sha256Hex (aad ++ strBytes (P.sha256Hex ct)) := by
  simp only [AcsEncryptedValue.authenticatedHash, AcsEncryptedValue.validate, bind_eq_ok,
    rejectIf_eq_ok, pure_eq_ok, not_not] at h
  obtain ⟨_, ⟨_, _, ct, hcp, hdg⟩, aad, had, rfl⟩ := h
  exact ⟨ct, aad, hcp, had, hdg.symm, by rw [hdg]⟩

/-- The digest at the end of a message is split off by its length. -/
theorem append_sha256Hex_inj {P : Primitives} (hlg : ∀ message, (P.sha256 message).length = 32)
    {xs ys c d : Bytes} (h : xs ++ strBytes (P.sha256Hex c) = ys ++ strBytes (P.sha256Hex d)) :
    xs = ys ∧ P.sha256 c = P.sha256 d := by
  have hln : (strBytes (P.sha256Hex c)).length = (strBytes (P.sha256Hex d)).length := by
    simp only [Primitives.sha256Hex, length_strBytes_hexBytes, hlg]
  obtain ⟨hxs, hdg⟩ := append_inj' h hln
  exact ⟨hxs, hexBytes_injective (strBytes_injective hdg)⟩

theorem authenticatedHash_inj {P : Primitives} (hlg : ∀ message, (P.sha256 message).length = 32)
    {v v' : AcsEncryptedValue}
    (hno : Set.InjOn P.sha256 {m | m ∈ v.messages P k vi ++ v'.messages P k' vi'})
    (h : v.authenticatedHash P k vi = .ok hash) (h' : v'.authenticatedHash P k' vi' = .ok hash) :
    acsEncryptedValueAssociatedData k vi v.childObjectIds =
        acsEncryptedValueAssociatedData k' vi' v'.childObjectIds ∧
      v.ciphertext P = v'.ciphertext P := by
  obtain ⟨ct, aad, hct, had, hdg, rfl⟩ := AcsEncryptedValue.authenticatedHash_eq_ok h
  obtain ⟨ct', aad', hct', had', hdg', heq⟩ := AcsEncryptedValue.authenticatedHash_eq_ok h'
  have hms : v.messages P k vi = [ct, aad ++ strBytes (P.sha256Hex ct)] := by
    rw [AcsEncryptedValue.messages, hct, had, hdg]; rfl
  have hms' : v'.messages P k' vi' = [ct', aad' ++ strBytes (P.sha256Hex ct')] := by
    rw [AcsEncryptedValue.messages, hct', had', hdg']; rfl
  rw [hms, hms'] at hno
  have hwh := hno (by simp) (by simp) (hexBytes_injective heq)
  obtain ⟨rfl, hsh⟩ := append_sha256Hex_inj hlg hwh
  obtain rfl := hno (by simp) (by simp) hsh
  exact ⟨had.trans had'.symm, hct.trans hct'.symm⟩

/-- Requests that sign the same bytes agree in all that is signed. Values with the same associated
data have the same kind, id and children, and with the same authenticated hash also the same
ciphertext, unless two of the messages hashed for them collide. -/
theorem encodings_unambiguous :
    (∀ auth auth' : AcsRequestAuthentication, ∀ method method' target target' bytes,
      auth.signingBytes method target = .ok bytes → auth'.signingBytes method' target' = .ok bytes →
      method = method' ∧ target = target' ∧ auth.accountLocator = auth'.accountLocator ∧
        auth.signingKeyId = auth'.signingKeyId ∧ auth.timestampEpochMs = auth'.timestampEpochMs ∧
        auth.nonceBase64url = auth'.nonceBase64url ∧ auth.bodySha256 = auth'.bodySha256) ∧
    ∀ value value' : AcsEncryptedValue, ∀ kind kind' valueId valueId',
      (∀ s ∈ valueId :: value.childObjectIds, s.utf8ByteSize < 2 ^ 32) →
      (∀ s ∈ valueId' :: value'.childObjectIds, s.utf8ByteSize < 2 ^ 32) →
      (∀ data, acsEncryptedValueAssociatedData kind valueId value.childObjectIds = .ok data →
        acsEncryptedValueAssociatedData kind' valueId' value'.childObjectIds = .ok data →
        kind = kind' ∧ valueId = valueId' ∧ value.childObjectIds = value'.childObjectIds) ∧
      ∀ P : Primitives, (∀ message, (P.sha256 message).length = 32) →
        Set.InjOn P.sha256
          {m | m ∈ value.messages P kind valueId ++ value'.messages P kind' valueId'} →
        ∀ hash, value.authenticatedHash P kind valueId = .ok hash →
        value'.authenticatedHash P kind' valueId' = .ok hash →
        kind = kind' ∧ valueId = valueId' ∧ value.childObjectIds = value'.childObjectIds ∧
          value.ciphertext P = value'.ciphertext P := by
  refine ⟨fun auth auth' method method' target target' bytes h h' => ?_,
    fun value value' kind kind' valueId valueId' hs hs' => ⟨fun data => associatedData_inj hs hs',
      fun P hlg hno hash h h' => ?_⟩⟩
  · have hls := signingBytes_inj h h'
    simp only [AcsRequestAuthentication.lines, cons.injEq] at hls
    obtain ⟨-, hm, htg, hac, hk, ht, hn, hb, -⟩ := hls
    refine ⟨?_, htg, hac, hk, Text.toString_int_inj ht, hn, hb⟩
    cases method <;> cases method' <;> first | rfl | exact absurd hm (by decide)
  · obtain ⟨had, hct⟩ := authenticatedHash_inj hlg hno h h'
    obtain ⟨-, aad, -, hok, -⟩ := AcsEncryptedValue.authenticatedHash_eq_ok h
    obtain ⟨hk, hid, hch⟩ := associatedData_inj hs hs' hok (had.symm.trans hok)
    exact ⟨hk, hid, hch, hct⟩

def signedRead (signature : String) : AcsRequestAuthentication :=
  ⟨acsContractId, "locator", "key", 1700000000000, "nonce", "digest", signature⟩

def storedValue : AcsEncryptedValue :=
  ⟨Base64.encode [1, 2, 3], hexBytes (Sha256.digest [1, 2, 3]), ["child", "other"]⟩

theorem storedValue_messages_injOn : Set.InjOn standardPrimitives.sha256 {m | m ∈
    storedValue.messages standardPrimitives .object "object" ++
      storedValue.messages standardPrimitives .object "object"} := by
  have h : ∀ m ∈ storedValue.messages standardPrimitives .object "object",
      ∀ m' ∈ storedValue.messages standardPrimitives .object "object",
      standardPrimitives.sha256 m = standardPrimitives.sha256 m' → m = m' := by decide +kernel
  intro m hm m' hm'
  simp only [Set.mem_ofPred_eq, mem_append, or_self] at hm hm'
  exact h m hm m' hm'

/-- Two requests that differ in their signatures, and a value with two children under SHA-256. -/
theorem encodings_unambiguous_storedValue :
    ((signedRead "first").signingBytes .get "/cloud/v1/root" =
        (signedRead "second").signingBytes .get "/cloud/v1/root" ∧
      (signedRead "first").timestampEpochMs = (signedRead "second").timestampEpochMs) ∧
    ∃ hash, storedValue.authenticatedHash standardPrimitives .object "object" = .ok hash ∧
      storedValue.ciphertext standardPrimitives = storedValue.ciphertext standardPrimitives := by
  obtain ⟨hsg, hav⟩ := encodings_unambiguous
  have hsm : ∀ s ∈ "object" :: storedValue.childObjectIds, s.utf8ByteSize < 2 ^ 32 := by decide
  obtain ⟨bytes, hb⟩ := exists_of_isOk (by decide :
    ((signedRead "first").signingBytes .get "/cloud/v1/root").isOk = true)
  obtain ⟨hash, hh⟩ := exists_of_isOk (by decide +kernel :
    (storedValue.authenticatedHash standardPrimitives .object "object").isOk = true)
  have heq : (signedRead "first").signingBytes .get "/cloud/v1/root" =
      (signedRead "second").signingBytes .get "/cloud/v1/root" := rfl
  obtain ⟨-, -, -, -, hts, -⟩ := hsg _ _ _ _ _ _ bytes hb (heq.symm.trans hb)
  obtain ⟨-, -, -, hct⟩ := (hav storedValue storedValue .object .object "object" "object" hsm hsm).2
    standardPrimitives Sha256.length_digest storedValue_messages_injOn hash hh hh
  exact ⟨⟨heq, hts⟩, hash, hh, hct⟩

end Aerobag
