import Aerobag.Client.Proofs.EngineProofs
import Aerobag.Lib.Base64
import Aerobag.Lib.Json

/-!
# Environments that can be run

`Recording.env` is given by what the libraries return on some inputs. The assumptions that proofs
make about an environment hold for it.
-/

open List

namespace Aerobag.Client

def CloudNode.text (node : CloudNode) : Bytes :=
  Json.object
    [("version", Json.number node.version), ("generation", Json.number node.generation),
      ("published_at_epoch_ms", Json.option Json.number node.publishedAtEpochMs),
      ("parent_node_id", Json.option Json.string node.parentNodeId),
      ("parent_node_hash", Json.option Json.string node.parentNodeHash),
      ("merkle_root_id", Json.string node.merkleRootId),
      ("merkle_root_hash", Json.string node.merkleRootHash),
      ("next_slot_id", Json.string node.nextSlotId)]

/-- The text of a record as a JSON value, whose members are sorted. -/
def CloudRecord.text (record : CloudRecord Bytes) : Bytes :=
  Json.object
    [("modified_at_epoch_ms", Json.option (fun time : I64 => Json.number time.val) record.modifiedAtEpochMs),
      ("schema_version", Json.number record.schemaVersion), ("value", record.value)]

def CloudPage.text (page : CloudPage Bytes) : Bytes :=
  Json.object
    [("records", Json.object (page.records.toList.map fun entry => (entry.1, entry.2.text))),
      ("version", Json.number page.version)]

instance : Encodable CloudNode :=
  .ofLeftInjection
    (fun node => (node.version, node.generation, node.publishedAtEpochMs, node.parentNodeId,
      node.parentNodeHash, node.merkleRootId, node.merkleRootHash, node.nextSlotId))
    (fun (version, generation, published, parentId, parentHash, rootId, rootHash, slot) =>
      some ⟨version, generation, published, parentId, parentHash, rootId, rootHash, slot⟩)
    fun _ => rfl

instance : Encodable (CloudRecord Bytes) :=
  .ofLeftInjection (fun record => (record.schemaVersion, record.modifiedAtEpochMs, record.value))
    (fun (version, modified, value) => some ⟨version, modified, value⟩) fun _ => rfl

theorem RecordMap.ofList_toList (rs : RecordMap Bytes) :
    Std.ExtTreeMap.ofList rs.toList compare = rs := by
  refine Std.ExtTreeMap.ext_getElem? fun key => ?_
  cases hrc : rs[key]? with
  | some record =>
    exact Std.ExtTreeMap.getElem?_ofList_of_mem Std.ReflCmp.compare_self
      Std.ExtTreeMap.distinct_keys_toList (Std.ExtTreeMap.mem_toList_iff_getElem?_eq_some.2 hrc)
  | none =>
    refine Std.ExtTreeMap.getElem?_ofList_of_contains_eq_false ?_
    rw [← Bool.not_eq_true, contains_iff_mem, List.mem_map]
    rintro ⟨e, he, rfl⟩
    exact absurd (hrc.symm.trans (Std.ExtTreeMap.mem_toList_iff_getElem?_eq_some.1 he)) (by simp)

instance : Encodable (CloudPage Bytes) :=
  .ofLeftInjection (fun page => (page.version, page.records.toList))
    (fun (version, entries) => some ⟨version, .ofList entries⟩)
    fun page => by simp only [RecordMap.ofList_toList]

structure SealedText where
  secret : Bytes
  nonce : Bytes
  role : String
  aad : Bytes
  json : Bytes
  ciphertext : Bytes

def SealedText.envelope (entry : SealedText) (accountTag : String) : Bytes :=
  Json.object
    [("version", Json.number 1), ("account_tag", Json.string accountTag),
      ("role", Json.string entry.role), ("nonce_base64", Json.string (Base64.encode entry.nonce)),
      ("ciphertext_base64", Json.string (Base64.encode entry.ciphertext))]

/-- What the libraries return in some run. -/
structure Recording where
  digests : List (Bytes × Bytes)
  sealedTexts : List SealedText
  nodes : List CloudNode
  pages : List (CloudPage Bytes)
  identities : List (Bytes × AcsIdentity)

namespace Recording

variable (r : Recording)

def accountTag (secret : Bytes) : String :=
  hexBytes ((recordedHash r.digests (strBytes "aerobag-cloud-account-locator-v1" ++ secret)).take 16)

def envelope (entry : SealedText) : Bytes := entry.envelope (r.accountTag entry.secret)

def encryptEnvelope (secret nonce : Bytes) (role : String) (aad json : Bytes) : Bytes :=
  match r.sealedTexts.find? fun entry => entry.secret = secret ∧ entry.nonce = nonce ∧
      entry.role = role ∧ entry.aad = aad ∧ entry.json = json with
  | some entry => r.envelope entry
  | none => 0 :: json

def decryptEnvelope (secret : Bytes) (role : String) (aad bytes : Bytes) : AppResult Bytes :=
  match r.sealedTexts.find? fun entry => entry.secret = secret ∧ entry.role = role ∧
      entry.aad = aad ∧ r.envelope entry = bytes with
  | some entry => .ok entry.json
  | none =>
    match bytes with
    | 0 :: json => .ok json
    | _ => .error "Aerobag Cloud envelope authentication failed"

def primitives : Primitives :=
  { Primitives.transparent with
    sha256 := recordedHash r.digests
    base64UrlEncode := Base64.encode
    base64UrlDecode := Base64.decode }

def nodeFromJson (json : Bytes) : AppResult CloudNode :=
  match readText r.nodes CloudNode.text json with
  | some node => .ok node
  | none => .error "not a node"

def codec : AccountCodec Bytes where
  normalize _ value := .ok value
  definitionBytes value := value
  recordBytes schemaVersion value :=
    strBytes "[" ++ Json.number schemaVersion ++ strBytes "," ++ value ++ strBytes "]"
  jsonTrue := strBytes "true"
  nodeToJson := writeText r.nodes CloudNode.text
  nodeFromJson := r.nodeFromJson
  pageToJson := writeText r.pages CloudPage.text
  pageFromJson json :=
    match readText r.pages CloudPage.text json with
    | some page => .ok page
    | none => .error "not a page"
  headerVersion json := (r.nodeFromJson json).map (·.version)
  legacyMembership value := .ok value

/-- The environment. Flight plans are the texts of their wire type. -/
def env : CloudEnv Bytes Bytes where
  primitives := r.primitives
  codec := r.codec
  encryptEnvelope := r.encryptEnvelope
  decryptEnvelope := r.decryptEnvelope
  flightPlanDefinition plan := plan
  flightPlanToWire plan := plan
  flightPlanFromWire value := .ok value
  deriveIdentity secret :=
    match r.identities.lookup secret with
    | some identity => .ok identity
    | none => .error "Aerobag Cloud key derivation failed"
  decodeDeviceSetupCode _ := .error "invalid Device Setup Code"
  validateBaseUrl url := .ok url
  resolveEventUrl baseUrl _ := .ok baseUrl
  planRequest _ _ _ _ := .ok ()
  debugResponse _ := ""

/-- What is recorded has no collisions. -/
structure Consistent : Prop where
  digests : RecordedDigests r.digests
  sealedTexts : (r.sealedTexts.map r.envelope).Nodup
  nodes : (r.nodes.map CloudNode.text).Nodup
  pages : (r.pages.map CloudPage.text).Nodup

/-- What is written is an envelope that was recorded, or made up. -/
theorem encryptEnvelope_cases (sec n : Bytes) (rl : String) (aad j : Bytes) :
    (∃ e ∈ r.sealedTexts, e.secret = sec ∧ e.role = rl ∧ e.aad = aad ∧
      e.json = j ∧ r.encryptEnvelope sec n rl aad j = r.envelope e) ∨
    r.encryptEnvelope sec n rl aad j = 0 :: j := by
  unfold encryptEnvelope
  split
  · rename_i e he
    have har := find?_some he
    obtain ⟨hsc, -, hrl, had, hj⟩ := of_decide_eq_true har
    exact .inl ⟨e, mem_of_find?_eq_some he, hsc, hrl, had, hj, rfl⟩
  · exact .inr rfl

variable {r}

theorem decryptEnvelope_encryptEnvelope (h : r.Consistent) (sec n : Bytes) (rl : String)
    (aad j : Bytes) : r.decryptEnvelope sec rl aad (r.encryptEnvelope sec n rl aad j) = .ok j := by
  have hfd : ∀ {bs e}, (r.sealedTexts.find? fun e => e.secret = sec ∧
      e.role = rl ∧ e.aad = aad ∧ r.envelope e = bs) = some e →
      e ∈ r.sealedTexts ∧ r.envelope e = bs := by
    intro bs e hfn
    have har := find?_some hfn
    exact ⟨mem_of_find?_eq_some hfn, (of_decide_eq_true har).2.2.2⟩
  unfold decryptEnvelope
  rcases r.encryptEnvelope_cases sec n rl aad j with ⟨e, hm, hsc, hrl, had, hj, hen⟩ | hmd
  · rw [hen]
    split
    · rename_i f hfn
      obtain ⟨hm', hsm⟩ := hfd hfn
      rw [inj_on_of_nodup_map h.sealedTexts hm' hm hsm, hj]
    · rename_i hn
      have hms := find?_eq_none.1 hn e hm
      simp [hsc, hrl, had] at hms
  · rw [hmd]
    split
    · rename_i f hfn
      have hhd : (r.envelope f).head? ≠ some 0 := Json.object_head? _
      exact absurd (by rw [(hfd hfn).2]; rfl) hhd
    · rfl

theorem env_lawful (h : r.Consistent) : r.env.Lawful where
  base64 := Base64.decode_encode
  envelope := decryptEnvelope_encryptEnvelope h
  node node := by
    have hrd := readText_writeText r.nodes CloudNode.text h.nodes (fun _ => Json.object_head? _) node
    simp [env, codec, nodeFromJson, hrd]
  header hnd := by
    simp only [env, codec] at hnd ⊢
    rw [hnd]
    rfl
  page page := by
    have hrd := readText_writeText r.pages CloudPage.text h.pages (fun _ => Json.object_head? _) page
    simp [env, codec, hrd]

theorem env_collisionFree (h : r.Consistent) : r.env.primitives.CollisionFree :=
  Primitives.collisionFree_of_recorded h.digests rfl

end Recording

/-! ## A new account

What the libraries return when a device creates an account, publishes its flight plan, and publishes
again after a debug flag was switched on; and when a client of format 1 creates one. -/

namespace Sample

def secret : Bytes := List.replicate 32 7

def identity : AcsIdentity where
  accountLocator := "YciSONvlARkc0GuNBOMEIDSSWMWXy9S32TSw_f1IuUc"
  signingPublicKeyBase64url := "olap4zIScGyTs37onoUy7FWXEj-Vn0A65eJUCV-_y00"
  signingKeyId := "Xc02QP1RsHzrjKG9QR7OSQ"

def plan : Bytes :=
  let null := strBytes "null"
  Json.object
    [("aircraft", Json.object
        [("definition_hash",
            Json.string "34429b8eaf8ba0b83ff0f3e9526d6059712fbd71ffdf62fa0bce6644cc8016b7"),
          ("profile_id", Json.string "normal-cruise")]),
      ("alternate", null), ("cruise_altitude_ft", null), ("departure", null), ("destination", null),
      ("id", Json.string "plan-empty"), ("name", Json.string "Flight Plan"), ("notes", null),
      ("planned_departure_time_epoch_ms", null), ("resolved_legs", strBytes "[]"),
      ("route_component_uid_counter", Json.number 0), ("route_component_uids", strBytes "[]"),
      ("route_components", strBytes "[]"), ("updated_at_epoch_ms", Json.number 0),
      ("version", Json.number 1)]

def time (n : Nat) (h : n < 2 ^ 32 := by decide) : I64 :=
  ⟨n, by simp only [i64Min, i64Max]; omega⟩

def firstPage : CloudPage Bytes :=
  pageForRecords ((∅ : RecordMap Bytes).insert flightPlanRecordKey ⟨4, some (time 1000), plan⟩)

def secondPage : CloudPage Bytes :=
  pageForRecords (firstPage.records.insert "settings/debug/tile_labels"
    ⟨1, some (time 2000), strBytes "true"⟩)

/-- A page of format 1. -/
def olderPage : CloudPage Bytes :=
  ⟨1, (∅ : RecordMap Bytes).insert flightPlanRecordKey ⟨3, some (time 1000), plan⟩⟩

def entropy (pageId pageNonce nodeNonce : UInt8) : StageEntropy :=
  ⟨List.replicate 24 pageId, List.replicate 12 pageNonce, List.replicate 12 nodeNonce⟩

def pageId (n : UInt8) : String := Base64.encode (List.replicate 24 n)

def associatedData (kind : AcsEncryptedValueKind) (valueId : String) (children : List String) :
    Bytes :=
  (acsEncryptedValueAssociatedData kind valueId children).toOption.getD []

def sealedPage (n nonce : UInt8) (page : CloudPage Bytes) (ciphertext : Bytes) : SealedText :=
  ⟨secret, List.replicate 12 nonce, "merkle_page", associatedData .object (pageId n) [], page.text,
    ciphertext⟩

def sealedNode (n nonce : UInt8) (node : CloudNode) (ciphertext : Bytes) : SealedText :=
  ⟨secret, List.replicate 12 nonce, "state_node", associatedData .root acsFixedRootId [pageId n],
    node.text, ciphertext⟩

def firstNode : CloudNode where
  version := cloudNodeVersion
  generation := 0
  publishedAtEpochMs := some 1000
  parentNodeId := none
  parentNodeHash := none
  merkleRootId := pageId 1
  merkleRootHash := "07358b1c6f34ebf1f65f9125413d8206a44c59251a12ca1d6f6cdd40614ee12d"
  nextSlotId := ""

def secondNode : CloudNode where
  version := cloudNodeVersion
  generation := 1
  publishedAtEpochMs := some 3000
  parentNodeId := some acsFixedRootId
  parentNodeHash := some "9788ba084425acf5789cb1169035f2b851c457cdf61893bb8e9fb58bd56a2b2c"
  merkleRootId := pageId 2
  merkleRootHash := "9e9927b897cf91c52aebc5433ed13a1fe899edda8366fc79a6437375b0e95c5a"
  nextSlotId := ""

def olderNode : CloudNode :=
  { firstNode with
    version := 1
    merkleRootId := pageId 3
    merkleRootHash := "0fb314b70bd390d5ffff08fd49454402ba376cd5333579fb29fe14e8daaece33" }

def firstSealedPage : SealedText :=
  sealedPage 1 1 firstPage <|
    [0x35a87f2c7231b73330cf02cde6cb4f8ea56525011966c6b95fc0b3ff99f27b86,
      0xf02ad938c942b27f3190fde66c83b6582a16d45afd9d2f4d64ff9ac2ff192dfa,
      0x00cec3ab8523a5a903c9c0312c26d3881972233a60924debe399b4bfeac0d1bc,
      0xfe19469aa09a1b1f9b7a50c338e72fde30419efe0a0917cc5d22c38e6ffee9cb,
      0x82a864a96b03ebc550cea199b35b45d79c4524d08b1a2b41b95bf377c1375547,
      0x0af81e1ec90c0262a6babf42360e54b10854970662fb8a52b95457ace33e2e0b,
      0x9d88a61b85b41878549df1cc3cdda819fbf252658a7c013bc73d4c84f8928dc8,
      0xbe4b04686921ee8658ccf38082e902fd21e2e5aa04274e2d759f74c3b35a88a7,
      0x809604262651027a33c6b6057c10ee35ac9ac8caf1c848cb451bc0168cc699fc,
      0xfb11398c6924dae8fb27cbfb7429c145028cb286e408a9a622bf77a3eff473fb,
      0x3e88412d3eeb0eeb5bfeeba17ebec7a7cae72bcb4e887c3e6f8c54c42f47586b,
      0x91e0e0986449e120c365274c9482fd0e8c77105b8915e9c690bb684bc6b5a554,
      0xfb3560a9a9e6ce0fd2490e7fa2c61236c3d026f9a0b68fa4acb99049d00f07c5,
      0xa0d2aadc6530d215b735bb1d5672b22ed01e8a37c395289db9f0cd3a6c1092df,
      0x456457d512cc704e11458c366b4137c99036439cff4517060700db018b792be0,
      0x8e6a0f31aa44c64166526b6647b92cf74d48fe656a7b242192268d46aaec3800,
      0x496791c1151842b6ddad0202eb4455556679f9de2b56bf203cbc7f399e71cdcd].flatMap (beBytes 32) ++
      beBytes 10 0x2bbba2a80310f38a10b4

def firstSealedNode : SealedText :=
  sealedNode 1 2 firstNode <|
    [0x04c92af5642caad22b089b3497b356fb12322fa93dd41ad384f5246a436a75c5,
      0x1b0c8702fb54374614774621033b939abf16b616cbc987b19c3f05d07ae6cb71,
      0x039d260def31188a4ecc3353cf56a9653c9ae8e54c63fb6c191143362c7e51ce,
      0x36d91ad659818d194fc52d43fe80a26c296cf614d552565881f1f885deb43a28,
      0x46422537aa66869971ce60f49b6e91c5e6aa0e10f8b3bcf0e8bd65d181555c3a,
      0x14d85047eb01be82435bcfcf500b06aec083381f405f76ed5bfa7c3bd90c4f96,
      0x96fdfeaee084a7dc11e8df00841d0e30686d5fac392739b13c5274b128c7e4da,
      0x657b3b7b0e4a431cc5e76605f3df5577dd9e13d1a55941df8374d72c20c4dbfa].flatMap (beBytes 32) ++
      beBytes 19 0xfeea2c057c06413bf4aca9776d6fc06ee0c6df

def secondSealedPage : SealedText :=
  sealedPage 2 3 secondPage <|
    [0xce966eb4b816695de0b5b2053eba91402a30e95e1a55628fddf560502b102136,
      0xdc2ccdf3a0bdd7bc6a298e7ddceb1b85fe0649041bcebda071c8196f6abf1120,
      0x36f69013756e0aa36d10940bd8e8fbe4f7e5d05b993a18f10b45aab69c3d028a,
      0x46bc0f13a09c922d5aa30a8b2c8e86a398c9d135900198d54aca63c8d6b5ce5b,
      0xf557a0300c8f79321aec10677f01a34cc69d126a55f9f64c65a6d23a0ec8c200,
      0x5b7bc8b9de07de04b5389be88adc131b5dfa1d762e8d5c3e568243640db96d64,
      0xb21280cc8a052994baea8227a7defed241d70430c4c7b4c57f4bef867e4af779,
      0x10b0f23166f76be9a1ab6d93d0581e783db4f1f2530cd08ae44b072fb2dbfeff,
      0x8561205f6e37cf0bfdbdab9f76495fcaf13f840e155cdbf825f0d75e9257aa0d,
      0x01ac251961d4eb0a8fac72b5252c970fa9e77ff2d776f44b1f1db8db5bf64f57,
      0xc24552e08b8406220ade753eb4d309ee63f6f10d9cb44ebdbfe7a39ac7ec151c,
      0x89ddf216f12b1c3b8dd245811213daee7cef5dcf45a9b18504a6f0f2eb28af5f,
      0x31db74371363b78437921c1dfdf1eee91b03128686e8432357451038db6b45fd,
      0xe832ee8df21ed19f132aef693e8ecd55c7dda019bddf26e0a4d21b3e1a88def4,
      0x50e81ad4bf59433f8d3ac3e8b2b8afc4503ec01c1986ccd6427681ec54db9ef1,
      0x1807b7ed05d813344af1a483df89b269b24c42c6b62f30a24f0b77ed4c79982a,
      0xf0349a4136e8cba2d9f649b1bd075ff96ca546c5cac14f8027eb6463969e496c,
      0x632dd076a8d02b54b3d24dd07ebedec7e7871b747785804e3a9948c4ffc0d9cb,
      0x4e719087169434d946ecf34eefba4367b1efa4cd4ebf4f848f617614269b12e4,
      0xe9ea0c8d4b051a5730e7527af3a89d2167a6d82ab220d7795924258d57d57f52].flatMap (beBytes 32) ++
      beBytes 5 0x214cc10b8c

def secondSealedNode : SealedText :=
  sealedNode 2 4 secondNode <|
    [0x5fa300fc4df30544102294080801349ad5f2a2d93b7f16f69713899a37161b24,
      0x90a6edf84e11c1431f63fb21e43123a57e42fb02ec51d2c8f2fb5cc13731802c,
      0x684886cdb8a09bd27c96757a2e9ab99e7974f01b90a150bb4a213f07d989b82b,
      0x7253482f9f965d1aa7c6bbe93ead1c212f5bc0dcc76cb6753460d40c4f768a4f,
      0x41a3ee95fa64930a3f7e54508b2a847b38a9e94b4068929e1f10cf4a6787dd72,
      0xcd9abf90cede488e738a7d8b3c749c00ff7fda8f1f4dae0ad020089b24988929,
      0x4eda97c8e09ed7cc18ac164729567727de1d83231586c0736b6126320ec93d15,
      0x44f437d266dae2bfbca053c75da79316a7b13846a26c3e496a9bd4b2db1b9183,
      0x83290955d916c78e401c75cfdfa72ee28ace0308a374f78f400eed29c6435689,
      0x1494addd021cf52e00008d41ef74f32a95932aefd88f2202dc871edc195c8926].flatMap (beBytes 32) ++
      beBytes 19 0xc565e3052daa699f183df62a630d8c7563df5d

def olderSealedPage : SealedText :=
  sealedPage 3 5 olderPage <|
    [0xe2d75945aa2173e645fc69826297273234aed740a1d144c0318c91d81b82f8c4,
      0xf2c3bee014cdc646a5aa3338ff354b152b68847143428713837fb7be7d9645fb,
      0xc4d09da01d9c26e76163aceb191a7599669942f1792ab40fbd0d534839a18b4d,
      0xbe30150f5175a32a4b22345fdd95876116ac37a7d2def9ab7e0e9b88bb1a1379,
      0xfc12e4231594c3cb17e2ddefb07c107e1259d87014fbbaff1e8270ea5ba049ff,
      0xbbf526805ae65c19f48458e412a226a402f5c72707579ab3aa95da9e7b3c0e9d,
      0x6520b949a0ea1c21cc115e17145957593a4b15b8d58ad4725bb4e98becb008cb,
      0x8cbee41f3c17a6b731cd536c791d00736c3a259384f4a9c9102e69e01c1a7e92,
      0xe3a8eb2bf0f86be06449910771e230281d2c69bfb98214e8ca899f66bb28f76e,
      0x0f165fbe72398c993b23be95ddf7770bd0a31add1591864a3a8e28221660dfab,
      0x596983be659652c17aa0572a306f213ab62f4973d5e0156a00bfa441bee124d1,
      0xf79e6859d0badab4eec1b72f7111cc917a96cec4939eccdb628c5a8f2614dbdd,
      0xec7928e9ad905724798294fa17f473654b2405e960bf3a1edbebb917d3a7e593,
      0xd6b0bf7f52625f1e445576bb95edcee976bbf8a1946a6a38e3722af739dd8262,
      0xbb58ed620ec0069a028b3176f09033adfc8133d5b3c9207e2d1200c23b4979ef,
      0xd5794390581527996a3551cfca3971d8d41625cd313c756476247cc9c7222e8f,
      0xb9839bbd0c76e64e242430caa44c2600c3d2fd3d4d8aa0864becf91338ddaaaf].flatMap (beBytes 32) ++
      beBytes 10 0xbb8e7db9b3f8cd999b7a

def olderSealedNode : SealedText :=
  sealedNode 3 6 olderNode <|
    [0xf21f2eb518b773f5266a513a9b8894caa40691ae765b8eb5ed8da94f843757bb,
      0xe57270d72647a25ca520a076a8f75249d4ae60d6ef98a589d8cbf1edc39e3772,
      0xcd38c60470eccec3ce68b0d58da77757f1a682d8bbb0528137a52a3b80ef0469,
      0xb7ebb764d29a6fceaefa886af522820b3e0455ea6b984e0517ca8b194f0eea7b,
      0x755025e2db0c631426c13e2e31b8ec99c8b4b038560d2eff0b267db9a141430c,
      0x99b2286e073ecc87a457c4f52ee9396e7dde960b5ec32ee6e7badb270e05a51f,
      0xa9569ccc24dc6f49fa9cf5cbedd46bb1c7f57c5a7a639f03ce3179c86278a952,
      0x7152589809969a990d7f3ee9936e2a88710cfaee004b112998dac0be25ab34b4].flatMap (beBytes 32) ++
      beBytes 19 0x81ff82a4de889a33d785fdf948a84efd968874

def valueDigests (entry : SealedText) (ciphertextSha256 hash : Nat) : List (Bytes × Bytes) :=
  [(entry.envelope "2aec027dbf09fcc8307facfe554b2cab", beBytes 32 ciphertextSha256),
    (entry.aad ++ strBytes (hexBytes (beBytes 32 ciphertextSha256)), beBytes 32 hash)]

def recording : Recording where
  digests :=
    (strBytes "aerobag-cloud-account-locator-v1" ++ secret,
      beBytes 32 0x2aec027dbf09fcc8307facfe554b2cab54e3184974474bf19d43832cb620de46) ::
    valueDigests firstSealedPage
      0x734e43c50df652143dc0ceed798e09f596e323ba3c1135aa0f6e6a0fd6d49def
      0x07358b1c6f34ebf1f65f9125413d8206a44c59251a12ca1d6f6cdd40614ee12d ++
    valueDigests firstSealedNode
      0xcda9a97a626937d3d6415273d599d5f5b381763c3da2658af69fbfccd5489962
      0x9788ba084425acf5789cb1169035f2b851c457cdf61893bb8e9fb58bd56a2b2c ++
    valueDigests secondSealedPage
      0xf1a41fa623e72684f63eb6dbf0b1a53783ad3b93e76ce03de49ab5b37191e323
      0x9e9927b897cf91c52aebc5433ed13a1fe899edda8366fc79a6437375b0e95c5a ++
    valueDigests secondSealedNode
      0xd26514f9404e7970a8768bd30643fbb5c2c410204f4ff5fc08b0c5a49dabb5b0
      0x1f81e60af801f66708a23fd2b8a7c1cc2a0749a12a52da80ffe6dda4eeca9124 ++
    valueDigests olderSealedPage
      0xa8e14615e0893128fc7f473c384fee745da6bfc33aeb580525cd5d01d0241b7b
      0x0fb314b70bd390d5ffff08fd49454402ba376cd5333579fb29fe14e8daaece33 ++
    valueDigests olderSealedNode
      0xeb82e305dddddc60e55ab4215a1a75297462c35a473c93c6dd8e647629a1950f
      0x2c69e5fadc10a22f6cded145cfc8b9fdde73d7aa1066fcebd4055c654cad583b
  sealedTexts := [firstSealedPage, firstSealedNode, secondSealedPage, secondSealedNode,
    olderSealedPage, olderSealedNode]
  nodes := [firstNode, secondNode, olderNode]
  pages := [firstPage, secondPage, olderPage]
  identities := [(secret, identity)]

theorem recording_consistent : recording.Consistent where
  digests := ⟨by decide +kernel, by decide +kernel, by decide +kernel⟩
  sealedTexts := by decide +kernel
  nodes := by decide +kernel
  pages := by decide +kernel

def root (revision : Nat) (rootHash : String) (entry : SealedText) (n : UInt8)
    (updatedAtEpochMs : Int) : AcsRootSnapshot where
  revision := revision
  rootHash := rootHash
  value := .fromCiphertext recording.primitives (recording.envelope entry) [pageId n]
  updatedAtEpochMs := updatedAtEpochMs

def firstRoot : AcsRootSnapshot :=
  root 1 "9788ba084425acf5789cb1169035f2b851c457cdf61893bb8e9fb58bd56a2b2c" firstSealedNode 1 1000

def secondRoot : AcsRootSnapshot :=
  root 2 "1f81e60af801f66708a23fd2b8a7c1cc2a0749a12a52da80ffe6dda4eeca9124" secondSealedNode 2 3000

def olderRoot : AcsRootSnapshot :=
  root 1 "2c69e5fadc10a22f6cded145cfc8b9fdde73d7aa1066fcebd4055c654cad583b" olderSealedNode 3 1000

def account : AccountRef :=
  ⟨some "https://aerobag.org/cloud/", "BwcHBwcHBwcHBwcHBwcHBwcHBwcHBwcHBwcHBwcHBwc"⟩

/-- The account is created and the flight plan published; then a debug flag is switched on. -/
def createAndEdit : List (DeviceLabel Bytes Bytes) :=
  [.configure (some "https://aerobag.org/cloud/"),
    .act .beginCreateAccount plan [] (time 1000), .act .createAccount plan secret (time 1000),
    .take 1000 (entropy 0 0 0),
    .complete 1 (.acsCreationChallenge acsContractId "challenge" 5000) 1000 (entropy 0 0 0),
    .take 1000 (entropy 0 0 0),
    .complete 2 (.acsAccountCreated acsContractId identity.accountLocator) 1000 (entropy 1 1 2),
    .take 1000 (entropy 0 0 0), .complete 3 .created 1000 (entropy 0 0 0),
    .take 1000 (entropy 0 0 0),
    .complete 4 (.acsRootCas (.committed firstRoot)) 1000 (entropy 0 0 0),
    .edit (.debugFlag "tile_labels" (strBytes "true")) (time 2000)]

def publishEdit : List (DeviceLabel Bytes Bytes) :=
  [.take 3000 (entropy 2 3 4), .complete 5 .created 3000 (entropy 0 0 0),
    .take 3000 (entropy 0 0 0),
    .complete 6 (.acsRootCas (.committed secondRoot)) 3000 (entropy 0 0 0)]

/-- What a client of format 1 leaves when it ends before the first root is committed. -/
def olderDisk : CloudPersistentState Bytes :=
  { (CloudPersistentState.default : CloudPersistentState Bytes) with
    recordsFormat := 1
    account := some ⟨account.rootSecretBase64, none,
      some ⟨"https://aerobag.org/cloud/", identity.accountLocator, 0, none, none⟩⟩
    workflow := some (.acsCommitRoot
      { purpose := .createAccount
        nodeId := acsFixedRootId
        pageId := pageId 3
        nextSlotId := ""
        pageBytesBase64 := Base64.encode (recording.envelope olderSealedPage)
        nodeBytesBase64 := Base64.encode (recording.envelope olderSealedNode)
        nodeHash := olderRoot.rootHash
        merkleRootHash := olderNode.merkleRootHash
        generation := 0
        publishedAtEpochMs := 1000
        localRevision := 0 } 0 none)
    records := ⟨olderPage.records, .ofList [flightPlanRecordKey], ∅⟩
    nextRequestId := 4 }

def resumeCreation : List (DeviceLabel Bytes Bytes) :=
  [.take 2000 (entropy 0 0 0),
    .complete 4 (.acsRootCas (.committed olderRoot)) 2000 (entropy 0 0 0)]

end Sample

end Aerobag.Client
