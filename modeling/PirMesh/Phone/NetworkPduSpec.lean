import Mathlib.Tactic.IntervalCases
import PirMesh.Phone.NetworkPdu

/-! # Phone — What the decoder of network PDUs returns (`SigPdu.m`)

A PDU names a key by its NID and the parity of an IV index by its IVI.  The index before the
receiver's is valid while an update is active, and only above 1; then each parity has one valid
index (`indexFor_eq_some`).  What is encrypted with the current keys of the receiver under a valid
index is decoded, and a PDU that names no key or no valid index is not (`networkPdu_decode`). -/

namespace PirMesh.NetworkPdu

open LibTools ProxyProtocol
open LowerTransport (OpenSSLHelper SigLowerTransportPduType)

/-! ### The index -/

/-- The indexes that a receiver decodes with. -/
def ValidIndex (ivIndex : SigIvIndex) (index : BitVec 32) : Prop :=
  index = ivIndex.index ∨
    (ivIndex.updateActive = true ∧ 1 < ivIndex.index ∧ index = ivIndex.index - 1)

def parity (index : BitVec 32) : Byte := (index &&& 0x01).setWidth 8

theorem and_one_toNat (index : BitVec 32) : (index &&& 0x01).toNat = index.toNat % 2 := by
  rw [BitVec.toNat_and]
  exact Nat.and_one_is_mod _

theorem parity_toNat (index : BitVec 32) : (parity index).toNat = index.toNat % 2 := by
  rw [parity, BitVec.toNat_setWidth, and_one_toNat]
  omega

theorem setWidth_eq_iff (ivi : Byte) (index : BitVec 32) :
    ivi.setWidth 32 = index &&& 0x01 ↔ ivi = parity index := by
  rw [← BitVec.toNat_inj, ← BitVec.toNat_inj, BitVec.toNat_setWidth, and_one_toNat, parity_toNat]
  have hivi := ivi.isLt
  omega

theorem iviOf_lt (pdu : List Byte) : (iviOf pdu).toNat < 2 := by
  have hbyte := (pdu.getD 0 0).isLt
  rw [iviOf, BitVec.toNat_ushiftRight, Nat.shiftRight_eq_div_pow]
  omega

/-- One index down is the other parity. -/
theorem parity_sub_one {index : BitVec 32} (h : 1 < index) :
    (parity (index - 1)).toNat = (index.toNat + 1) % 2 := by
  have hlt : 1 < index.toNat := h
  have hindex := index.isLt
  rw [parity_toNat, BitVec.toNat_sub_of_le (show (1 : BitVec 32).toNat ≤ index.toNat from hlt.le)]
  have hone : (1 : BitVec 32).toNat = 1 := rfl
  omega

/-- The index that is taken is the valid one of the parity. -/
theorem indexFor_eq_some {ivIndex : SigIvIndex} {ivi : Byte} (hivi : ivi.toNat < 2)
    (index : BitVec 32) :
    indexFor ivIndex ivi = some index ↔ ValidIndex ivIndex index ∧ ivi = parity index := by
  unfold indexFor ValidIndex
  by_cases hcur : ivi = parity ivIndex.index
  · rw [if_neg (not_not.mpr ((setWidth_eq_iff _ _).mpr hcur))]
    constructor
    · rintro h
      obtain rfl := Option.some.inj h
      exact ⟨.inl rfl, hcur⟩
    · rintro ⟨rfl | ⟨-, hlt, rfl⟩, hparity⟩
      · rfl
      · -- both parities cannot be the one of the PDU
        have hsub := parity_sub_one hlt
        rw [← hparity, hcur, parity_toNat] at hsub
        omega
  · rw [if_pos fun h => hcur ((setWidth_eq_iff _ _).mp h)]
    split_ifs with hprev
    · constructor
      · intro h
        obtain rfl := Option.some.inj h
        refine ⟨.inr ⟨hprev.1, hprev.2, rfl⟩, BitVec.eq_of_toNat_eq ?_⟩
        have hne : ivi.toNat ≠ (parity ivIndex.index).toNat := fun h =>
          hcur (BitVec.eq_of_toNat_eq h)
        rw [parity_toNat] at hne
        rw [parity_sub_one hprev.2]
        omega
      · rintro ⟨rfl | ⟨-, -, rfl⟩, hparity⟩
        · exact absurd hparity hcur
        · rfl
    · constructor
      · intro h
        cases h
      · rintro ⟨rfl | ⟨hactive, hlt, -⟩, hparity⟩
        · exact absurd hparity hcur
        · exact absurd ⟨hactive, hlt⟩ hprev

theorem indexFor_eq_none {ivIndex : SigIvIndex} {ivi : Byte} (hivi : ivi.toNat < 2)
    (h : ∀ index, ValidIndex ivIndex index → ivi ≠ parity index) : indexFor ivIndex ivi = none := by
  rw [Option.eq_none_iff_forall_ne_some]
  intro index hindex
  obtain ⟨hvalid, hparity⟩ := (indexFor_eq_some hivi index).mp hindex
  exact h index hvalid hparity

/-! ### The keys -/

/-- The key that the NID is compared with. -/
def NamesKey (cr : NetworkCrypto) (networkKey : NetkeyObject) (nid : Byte) : Prop :=
  nid = networkKey.nid cr ∨ (networkKey.oldKeys cr ≠ none ∧ nid = networkKey.oldNid cr)

theorem keySets_of_nid {cr : NetworkCrypto} {networkKey : NetkeyObject}
    {keys : SigNetkeyDerivaties} (hkeys : networkKey.keys cr = some keys) :
    ∃ rest, keySets cr networkKey (networkKey.nid cr) = some (keys :: rest) := by
  unfold keySets
  rw [if_pos rfl, hkeys]
  by_cases hold : networkKey.oldKeys cr ≠ none ∧ networkKey.oldNid cr = networkKey.nid cr
  · exact ⟨[keys], by simp [hold]⟩
  · refine ⟨[], ?_⟩
    rw [Option.map_some, Option.bind_some, if_neg hold]

theorem keySets_of_not_names {cr : NetworkCrypto} {networkKey : NetkeyObject} {nid : Byte}
    (h : ¬ NamesKey cr networkKey nid) : keySets cr networkKey nid = some [] := by
  unfold NamesKey at h
  rw [not_or] at h
  unfold keySets
  rw [if_neg h.1, Option.bind_some, if_neg fun hold => h.2 ⟨hold.1, hold.2.symm⟩]

/-- For the old NID too, it is the new keys that are tried. -/
theorem keys_of_mem_keySets {cr : NetworkCrypto} {networkKey : NetkeyObject} {nid : Byte}
    {sets : List SigNetkeyDerivaties} (h : keySets cr networkKey nid = some sets)
    {keys : SigNetkeyDerivaties} (hmem : keys ∈ sets) : networkKey.keys cr = some keys := by
  obtain ⟨first, hfirst, h⟩ := Option.bind_eq_some_iff.mp h
  have hin : keys ∈ first → networkKey.keys cr = some keys := by
    intro hmem
    split_ifs at hfirst
    · obtain ⟨new, hnew, rfl⟩ := Option.map_eq_some_iff.mp hfirst
      rw [hnew, List.mem_singleton.mp hmem]
    · obtain rfl := Option.some.inj hfirst
      cases hmem
  split_ifs at h
  · obtain ⟨new, hnew, rfl⟩ := Option.map_eq_some_iff.mp h
    rcases List.mem_append.mp hmem with hmem | hmem
    · exact hin hmem
    · rw [hnew, List.mem_singleton.mp hmem]
  · obtain rfl := Option.some.inj h
    exact hin hmem

/-- With a key nothing is missing in the sets. -/
theorem keySets_isSome {cr : NetworkCrypto} {networkKey : NetkeyObject}
    (hkeys : (networkKey.keys cr).isSome) (nid : Byte) : (keySets cr networkKey nid).isSome := by
  obtain ⟨keys, hkeys⟩ := Option.isSome_iff_exists.mp hkeys
  unfold keySets
  rw [hkeys]
  split_ifs <;> rfl

/-! ### Octets -/

/-- An octet of one bit and seven. -/
theorem flag_octet {flag : Byte} (hflag : flag.toNat < 2) (low : Byte) :
    ((flag <<< 7) ||| (low &&& 0x7F)) >>> 7 = flag ∧
      ((flag <<< 7) ||| (low &&& 0x7F)) &&& 0x7F = low &&& 0x7F := by
  have hclear : ∀ low : Byte, ((0#8 <<< 7) ||| (low &&& 0x7F)) >>> 7 = 0#8 ∧
      ((0#8 <<< 7) ||| (low &&& 0x7F)) &&& 0x7F = low &&& 0x7F := by decide
  have hset : ∀ low : Byte, ((1#8 <<< 7) ||| (low &&& 0x7F)) >>> 7 = 1#8 ∧
      ((1#8 <<< 7) ||| (low &&& 0x7F)) &&& 0x7F = low &&& 0x7F := by decide
  obtain h | h : flag.toNat = 0 ∨ flag.toNat = 1 := by omega
  · rw [show flag = 0#8 from BitVec.eq_of_toNat_eq h]
    exact hclear low
  · rw [show flag = 1#8 from BitVec.eq_of_toNat_eq h]
    exact hset low

theorem bigEndian16_read (x : BitVec 16) :
    ((x >>> 8).setWidth 8).setWidth 16 <<< 8 ||| (x.setWidth 8).setWidth 16 = x := by
  ext i hi
  interval_cases i <;> simp

theorem sequence_read (x : BitVec 32) :
    ((x >>> 16).setWidth 8).setWidth 32 <<< 16 ||| ((x >>> 8).setWidth 8).setWidth 32 <<< 8 |||
      (x.setWidth 8).setWidth 32 = x &&& 0xFFFFFF := by
  ext i hi
  interval_cases i <;> simp

/-! ### One PDU -/

@[simp] theorem length_deobfuscatedHead (type : SigLowerTransportPduType) (ttl : Byte)
    (sequence : BitVec 32) (source : BitVec 16) :
    (deobfuscatedHead type ttl sequence source).length = 6 := rfl

theorem deobfuscate_obfuscate (cr : NetworkCrypto) {data random obfuscatedData : List Byte}
    {index : BitVec 32} {privacyKey : List Byte} (hlen : data.length = 6)
    (h : cr.obfuscate data random index privacyKey = some obfuscatedData) (first : Byte) :
    cr.deobfuscate (first :: (obfuscatedData ++ random)) index privacyKey = data := by
  unfold NetworkCrypto.obfuscate subdataWithRange at h
  obtain ⟨privacyRandom, hrandom, rfl⟩ := Option.map_eq_some_iff.mp h
  split_ifs at hrandom
  obtain rfl := Option.some.inj hrandom
  simp [NetworkCrypto.deobfuscate, hlen, List.drop_append, xor_xor]

theorem length_obfuscate {cr : NetworkCrypto} {data random obfuscatedData : List Byte}
    {index : BitVec 32} {privacyKey : List Byte}
    (h : cr.obfuscate data random index privacyKey = some obfuscatedData) :
    obfuscatedData.length = data.length := by
  obtain ⟨-, -, rfl⟩ := Option.map_eq_some_iff.mp h
  exact length_xor _ _

/-- `encryptedData` of the encoder. -/
def encryptedData (cr : NetworkCrypto) (pdu : SigLowerTransportPdu) (pduType : SigPduType)
    (sequence : BitVec 32) (ttl : Byte) (index : BitVec 32) (keys : SigNetkeyDerivaties) :
    List Byte :=
  cr.calculateCCM pdu.decryptedData keys.encryptionKey
    (networkNonce pduType (deobfuscatedHead pdu.type ttl sequence pdu.source) index)
    (getNetMicSizeOfLowerTransportPduType pdu.type) []

theorem length_encryptedData (cr : NetworkCrypto) (pdu : SigLowerTransportPdu)
    (pduType : SigPduType) (sequence : BitVec 32) (ttl : Byte) (index : BitVec 32)
    (keys : SigNetkeyDerivaties) :
    (encryptedData cr pdu pduType sequence ttl index keys).length =
      pdu.transportPdu.length + 2 + getNetMicSizeOfLowerTransportPduType pdu.type := by
  rw [encryptedData, cr.length_calculateCCM]
  simp [SigLowerTransportPdu.decryptedData, bigEndian16]

/-- Where there are keys and the rest of the PDU is 7 octets long, nothing is missing. -/
theorem encode_eq {cr : NetworkCrypto} {pdu : SigLowerTransportPdu} {keys : SigNetkeyDerivaties}
    (hkeys : pdu.networkKey.transmitKeys cr = some keys) (hne : pdu.transportPdu ≠ [])
    (pduType : SigPduType) (sequence : BitVec 32) (ttl : Byte) (ivIndex : SigIvIndex) :
    ∃ obfuscatedData,
      cr.obfuscate (deobfuscatedHead pdu.type ttl sequence pdu.source)
        (encryptedData cr pdu pduType sequence ttl ivIndex.index keys) ivIndex.index
        keys.privacyKey = some obfuscatedData ∧
      initWithEncodeLowerTransportPdu cr pdu pduType sequence ttl ivIndex = some
        { networkKey := pdu.networkKey
          pduData := ((parity ivIndex.index <<< 7) ||| (pdu.networkKey.nid cr &&& 0x7F)) ::
            (obfuscatedData ++ encryptedData cr pdu pduType sequence ttl ivIndex.index keys)
          ivi := parity ivIndex.index
          nid := pdu.networkKey.nid cr
          type := pdu.type
          ttl := ttl
          sequence := sequence
          source := pdu.source
          destination := pdu.destination
          transportPdu := pdu.transportPdu } := by
  have hpos := List.length_pos_iff.mpr hne
  have hmic : 4 ≤ getNetMicSizeOfLowerTransportPduType pdu.type := by
    cases pdu.type <;> decide
  have hlen := length_encryptedData cr pdu pduType sequence ttl ivIndex.index keys
  -- destination, one octet and the MIC are the 7 octets of the random
  have hrandom : (subdataWithRange
      (encryptedData cr pdu pduType sequence ttl ivIndex.index keys) 0 7).isSome := by
    unfold subdataWithRange
    rw [if_pos (by omega)]
    rfl
  obtain ⟨privacyRandom, hrandom⟩ := Option.isSome_iff_exists.mp hrandom
  have hobf : cr.obfuscate (deobfuscatedHead pdu.type ttl sequence pdu.source)
      (encryptedData cr pdu pduType sequence ttl ivIndex.index keys) ivIndex.index
      keys.privacyKey = some (xor (deobfuscatedHead pdu.type ttl sequence pdu.source)
        (cr.pecb privacyRandom ivIndex.index keys.privacyKey)) := by
    unfold NetworkCrypto.obfuscate
    rw [hrandom, Option.map_some]
  refine ⟨_, hobf, ?_⟩
  unfold initWithEncodeLowerTransportPdu
  dsimp only
  rw [hkeys]
  exact congrArg (Option.map _) hobf

theorem typeValue_lt (type : SigLowerTransportPduType) : (typeValue type).toNat < 2 := by
  cases type <;> decide

theorem typeValue_read (type : SigLowerTransportPduType) :
    (if typeValue type = 0 then SigLowerTransportPduType.accessMessage else .controlMessage) =
      type := by
  cases type <;> decide

/-- The turn of the loop where the head and the rest are read as they were written. -/
theorem decodeWithKeys_eq {cr : NetworkCrypto} {data : List Byte} {pduType : SigPduType}
    {index : BitVec 32} {keys : SigNetkeyDerivaties} {pdu : SigLowerTransportPdu} {ttl : Byte}
    {sequence : BitVec 32} (networkKey : NetkeyObject)
    (hhead : cr.deobfuscate data index keys.privacyKey =
      deobfuscatedHead pdu.type ttl sequence pdu.source)
    (hlast : ¬ (typeValue pdu.type ≠ 0 ∧ data.length < 18))
    (hrest : cr.calculateDecryptedCCM
      ((data.drop 7).take (data.length - getNetMicSizeOfLowerTransportPduType pdu.type - 7))
      keys.encryptionKey
      (networkNonce pduType (deobfuscatedHead pdu.type ttl sequence pdu.source) index)
      (data.drop (data.length - getNetMicSizeOfLowerTransportPduType pdu.type)) =
        some pdu.decryptedData) :
    decodeWithKeys cr data pduType networkKey index keys = some (.pdu
      { networkKey := networkKey
        pduData := data
        ivi := iviOf data
        nid := nidOf data
        type := pdu.type
        ttl := ttl &&& 0x7F
        sequence := sequence &&& 0xFFFFFF
        source := pdu.source
        destination := pdu.destination
        transportPdu := pdu.transportPdu }) := by
  obtain ⟨htype, httl⟩ := flag_octet (typeValue_lt pdu.type) ttl
  have hbyte : (deobfuscatedHead pdu.type ttl sequence pdu.source).getD 0 0 =
      (typeValue pdu.type <<< 7) ||| (ttl &&& 0x7F) := rfl
  have hsequence : ((deobfuscatedHead pdu.type ttl sequence pdu.source).getD 1 0).setWidth 32 <<< 16
      ||| ((deobfuscatedHead pdu.type ttl sequence pdu.source).getD 2 0).setWidth 32 <<< 8 |||
        ((deobfuscatedHead pdu.type ttl sequence pdu.source).getD 3 0).setWidth 32 =
          sequence &&& 0xFFFFFF := sequence_read sequence
  have hsource : ((deobfuscatedHead pdu.type ttl sequence pdu.source).getD 4 0).setWidth 16 <<< 8
      ||| ((deobfuscatedHead pdu.type ttl sequence pdu.source).getD 5 0).setWidth 16 =
        pdu.source := bigEndian16_read pdu.source
  have hplain : pdu.decryptedData = (pdu.destination >>> 8).setWidth 8 ::
      pdu.destination.setWidth 8 :: pdu.transportPdu := rfl
  -- from here on the head is what was read from it
  generalize deobfuscatedHead pdu.type ttl sequence pdu.source = head at *
  unfold decodeWithKeys
  simp only [hhead, hbyte, htype, typeValue_read, httl, hsequence, hsource, hrest, hplain]
  rw [if_neg hlast, bigEndian16_read]

/-! ### Decoding what was encoded -/

/-- The sender encrypts with the keys that the receiver has now, and names them. -/
structure SharesKeys (cr : NetworkCrypto) (sender receiver : NetkeyObject) : Prop where
  keys : sender.transmitKeys cr = receiver.keys cr
  nid : sender.nid cr = receiver.nid cr

/-- Where the phase is not `distributingKeys`, the new keys are sent with. -/
theorem sharesKeys_of_phase {cr : NetworkCrypto} {sender receiver : NetkeyObject}
    (hphase : sender.phase ≠ .distributingKeys) (hkeys : sender.keys cr = receiver.keys cr)
    (hnid : sender.nid cr = receiver.nid cr) : SharesKeys cr sender receiver :=
  ⟨by rw [NetkeyObject.transmitKeys, if_neg hphase, hkeys], hnid⟩

/-- The decoder gives back what the encoder was given; TTL has 7 bits and SEQ 24. -/
structure SamePdu (networkPdu : SigNetworkPdu) (pdu : SigLowerTransportPdu) (sequence : BitVec 32)
    (ttl : Byte) : Prop where
  type : networkPdu.type = pdu.type
  ttl : networkPdu.ttl = ttl &&& 0x7F
  sequence : networkPdu.sequence = sequence &&& 0xFFFFFF
  source : networkPdu.source = pdu.source
  destination : networkPdu.destination = pdu.destination
  transportPdu : networkPdu.transportPdu = pdu.transportPdu

/-- What is encoded under the one index is decoded under the other. -/
def RoundTrips (cr : NetworkCrypto) (pdu : SigLowerTransportPdu) (pduType : SigPduType)
    (sequence : BitVec 32) (ttl : Byte) (sent : SigIvIndex) (receiver : NetkeyObject)
    (ivIndex : SigIvIndex) : Prop :=
  ∃ encoded decoded, initWithEncodeLowerTransportPdu cr pdu pduType sequence ttl sent =
      some encoded ∧
    initWithDecodePduData cr encoded.pduData pduType receiver ivIndex = .pdu decoded ∧
    SamePdu decoded pdu sequence ttl

/-- The turn with the keys and the index that were encoded with. -/
theorem decodeWithKeys_encoded {cr : NetworkCrypto} {pdu : SigLowerTransportPdu}
    {keys : SigNetkeyDerivaties} {pduType : SigPduType} {sequence : BitVec 32} {ttl : Byte}
    {index : BitVec 32} {obfuscatedData : List Byte} (hdecrypts : cr.Decrypts pdu.decryptedData)
    (hne : pdu.transportPdu ≠ [])
    (hobf : cr.obfuscate (deobfuscatedHead pdu.type ttl sequence pdu.source)
      (encryptedData cr pdu pduType sequence ttl index keys) index keys.privacyKey =
        some obfuscatedData)
    (networkKey : NetkeyObject) (first : Byte) :
    ∃ decoded, decodeWithKeys cr
        (first :: (obfuscatedData ++ encryptedData cr pdu pduType sequence ttl index keys)) pduType
        networkKey index keys = some (.pdu decoded) ∧
      SamePdu decoded pdu sequence ttl := by
  have hpos := List.length_pos_iff.mpr hne
  have hobflen := length_obfuscate hobf
  have hlen := length_encryptedData cr pdu pduType sequence ttl index keys
  have hhead := deobfuscate_obfuscate cr (length_deobfuscatedHead _ _ _ _) hobf first
  have hccm := hdecrypts keys.encryptionKey
    (networkNonce pduType (deobfuscatedHead pdu.type ttl sequence pdu.source) index)
    (getNetMicSizeOfLowerTransportPduType pdu.type) keys.length_encryptionKey
    (length_networkNonce pduType (length_deobfuscatedHead _ _ _ _) index)
    (by cases pdu.type <;> decide)
  have hplain : pdu.decryptedData.length = pdu.transportPdu.length + 2 := by
    simp [SigLowerTransportPdu.decryptedData, bigEndian16]
  rw [length_deobfuscatedHead] at hobflen
  change cr.calculateDecryptedCCM
    ((encryptedData cr pdu pduType sequence ttl index keys).take _) _ _
    ((encryptedData cr pdu pduType sequence ttl index keys).drop _) = _ at hccm
  generalize encryptedData cr pdu pduType sequence ttl index keys = encrypted at *
  have htotal : (first :: (obfuscatedData ++ encrypted)).length =
      7 + pdu.decryptedData.length + getNetMicSizeOfLowerTransportPduType pdu.type := by
    rw [List.length_cons, List.length_append]
    omega
  have hdrop : (first :: (obfuscatedData ++ encrypted)).drop 7 = encrypted := by
    simp [hobflen]
  refine ⟨_, decodeWithKeys_eq networkKey hhead ?_ ?_, ⟨rfl, rfl, rfl, rfl, rfl, rfl⟩⟩
  · -- a control message has 18 octets
    rintro ⟨hctl, hshort⟩
    have hmic : getNetMicSizeOfLowerTransportPduType pdu.type = 8 := by
      cases htype : pdu.type
      · exact absurd (by rw [htype]; rfl) hctl
      · rfl
    omega
  · rw [htotal, Nat.add_sub_cancel, ← List.drop_drop, hdrop, Nat.add_sub_cancel_left]
    exact hccm

/-- The keys of the receiver are tried first. -/
theorem decode_of_turn {cr : NetworkCrypto} {data : List Byte} {pduType : SigPduType}
    {networkKey : NetkeyObject} {ivIndex : SigIvIndex} {keys : SigNetkeyDerivaties}
    {index : BitVec 32} {decoded : Decoded}
    (htype : pduType = .networkPdu ∨ pduType = .proxyConfiguration) (hlen : 14 ≤ data.length)
    (hkeys : networkKey.keys cr = some keys) (hnid : nidOf data = networkKey.nid cr)
    (hindex : indexFor ivIndex (iviOf data) = some index)
    (hturn : decodeWithKeys cr data pduType networkKey index keys = some decoded) :
    initWithDecodePduData cr data pduType networkKey ivIndex = decoded := by
  obtain ⟨rest, hsets⟩ := keySets_of_nid hkeys
  unfold initWithDecodePduData
  rw [if_neg (by rcases htype with rfl | rfl <;> decide), if_neg (by omega), hnid, hsets, hindex]
  dsimp only
  rw [decodeWithKeySets, hturn]

theorem roundTrips {cr : NetworkCrypto} {pdu : SigLowerTransportPdu} {pduType : SigPduType}
    {sent ivIndex : SigIvIndex} {receiver : NetkeyObject} {keys : SigNetkeyDerivaties}
    (hkeys : receiver.keys cr = some keys)
    (htype : pduType = .networkPdu ∨ pduType = .proxyConfiguration)
    (hshares : SharesKeys cr pdu.networkKey receiver) (hdecrypts : cr.Decrypts pdu.decryptedData)
    (hne : pdu.transportPdu ≠ []) (hindex : ValidIndex ivIndex sent.index) (sequence : BitVec 32)
    (ttl : Byte) : RoundTrips cr pdu pduType sequence ttl sent receiver ivIndex := by
  obtain ⟨obfuscatedData, hobf, hencode⟩ :=
    encode_eq (hshares.keys.trans hkeys) hne pduType sequence ttl sent
  have hparity : (parity sent.index).toNat < 2 := by
    rw [parity_toNat]
    omega
  -- the first octet names the index and the key
  obtain ⟨hivi, hnid⟩ := flag_octet hparity (pdu.networkKey.nid cr)
  obtain ⟨decoded, hturn, hsame⟩ := decodeWithKeys_encoded hdecrypts hne hobf receiver
    ((parity sent.index <<< 7) ||| (pdu.networkKey.nid cr &&& 0x7F))
  refine ⟨_, decoded, hencode, decode_of_turn htype ?_ hkeys ?_ ?_ hturn, hsame⟩
  · have hpos := List.length_pos_iff.mpr hne
    have hobflen := length_obfuscate hobf
    have hlen := length_encryptedData cr pdu pduType sequence ttl sent.index keys
    have hmic : 4 ≤ getNetMicSizeOfLowerTransportPduType pdu.type := by
      cases pdu.type <;> decide
    rw [length_deobfuscatedHead] at hobflen
    rw [List.length_cons, List.length_append]
    omega
  · exact hnid.trans ((NetkeyObject.nid_and cr _).trans hshares.nid)
  · exact (indexFor_eq_some (iviOf_lt _) _).mpr ⟨hindex, hivi⟩

/-! ### What is not decoded -/

/-- The NID and the IVI are those of a key and of a valid index. -/
def NamesKeyAndIndex (cr : NetworkCrypto) (networkKey : NetkeyObject) (ivIndex : SigIvIndex)
    (data : List Byte) : Prop :=
  NamesKey cr networkKey (nidOf data) ∧
    ∃ index, ValidIndex ivIndex index ∧ iviOf data = parity index

theorem decode_of_not_names {cr : NetworkCrypto} {networkKey : NetkeyObject}
    {ivIndex : SigIvIndex} {data : List Byte} (hkeys : (networkKey.keys cr).isSome)
    (h : ¬ NamesKeyAndIndex cr networkKey ivIndex data) (pduType : SigPduType) :
    initWithDecodePduData cr data pduType networkKey ivIndex = .nil := by
  unfold initWithDecodePduData
  split_ifs
  · rfl
  · rfl
  · by_cases hname : NamesKey cr networkKey (nidOf data)
    · have hindex : indexFor ivIndex (iviOf data) = none :=
        indexFor_eq_none (iviOf_lt data) fun index hvalid hparity =>
          h ⟨hname, index, hvalid, hparity⟩
      obtain ⟨sets, hsets⟩ := Option.isSome_iff_exists.mp (keySets_isSome hkeys (nidOf data))
      rw [hsets, hindex]
      cases sets <;> rfl
    · rw [keySets_of_not_names hname]

/-! ### A control message -/

def hex (text : String) : List Byte := nsstringToHex text.toList

def sampleText : String := "7dd7364cd842ad18c17c2b820c84c3d6"

def sampleKeys : List Byte × List Byte :=
  (hex "0953fa93e7caac9638f58820220a398e", hex "8b84eedec100067d670971dd2aa700cf")

/-- The octets of a table, as many as are asked for. -/
def fit (n : ℕ) (octets : Option (List Byte)) : List Byte :=
  (List.range n).map ((octets.getD []).getD · 0)

@[simp] theorem length_fit (n : ℕ) (octets : Option (List Byte)) : (fit n octets).length = n := by
  simp [fit]

/-- AES-CMAC where the NID and the keys are derived. -/
def sampleMacs : List ((List Byte × List Byte) × List Byte) :=
  let s1 := hex "4f90480c1871bfbffd16971f4d8d10b1"
  let t := hex "39885e0463bafd54ca6e495b1001515a"
  let t1 := hex "88dad4892e81fecbe061ebd3fb093268"
  [(([0x73, 0x6D, 0x6B, 0x32], List.replicate 16 0), s1), ((hex sampleText, s1), t),
    (([0, 1], t), t1), ((t1 ++ [0, 2], t), sampleKeys.1),
    ((sampleKeys.1 ++ [0, 3], t), sampleKeys.2)]

def sampleNonce : List Byte := hex "00800000011201000012345678"

def sampleStream (key nonce : List Byte) : List Byte :=
  if key = sampleKeys.1 ∧ nonce = sampleNonce then hex "4a18bc919baa12f7fb6bfe871f" else [0]

def sampleMic (key nonce : List Byte) : Option (List Byte) :=
  if key = sampleKeys.1 ∧ nonce = sampleNonce then some (hex "035444ce83a670df") else none

/-- AES on the octets of one PDU; elsewhere it is not AES. -/
def sampleCrypto : NetworkCrypto where
  calculateCMAC data key := fit 16 (sampleMacs.lookup (data, key))
  calculateECB data key := fit 16 (
    if data = hex "000000000012345678b5e5bfdacbaf6c" ∧ key = sampleKeys.2 then
      some (hex "6ca4875075640101a9bf0358d698cb24")
    else none)
  calculateCCM data key nonce micSize _ :=
    xor data (sampleStream key nonce) ++ fit micSize (sampleMic key nonce)
  calculateDecryptedCCM data key nonce mic :=
    if mic = fit mic.length (sampleMic key nonce) then some (xor data (sampleStream key nonce))
    else none
  length_calculateCCM := by simp
  length_calculateCMAC _ _ := length_fit _ _
  length_calculateECB _ _ := length_fit _ _

theorem sampleCrypto_decrypts (data : List Byte) : sampleCrypto.Decrypts data := by
  intro key nonce micSize _ _ _
  have hcipher : sampleCrypto.calculateCCM data key nonce micSize [] =
      xor data (sampleStream key nonce) ++ fit micSize (sampleMic key nonce) := rfl
  have htake : (sampleCrypto.calculateCCM data key nonce micSize []).take data.length =
      xor data (sampleStream key nonce) := by
    rw [hcipher]
    exact List.take_left' (length_xor _ _)
  have hdrop : (sampleCrypto.calculateCCM data key nonce micSize []).drop data.length =
      fit micSize (sampleMic key nonce) := by
    rw [hcipher]
    exact List.drop_left' (length_xor _ _)
  have hplain : sampleCrypto.calculateDecryptedCCM (xor data (sampleStream key nonce)) key nonce
      (fit micSize (sampleMic key nonce)) =
        some (xor (xor data (sampleStream key nonce)) (sampleStream key nonce)) :=
    if_pos (by rw [length_fit])
  rw [htake, hdrop, hplain, xor_xor]

def sampleNetkey : NetkeyObject where
  key := some sampleText.toList
  oldKey := none
  phase := .normalOperation
  ivIndex := none
  keptNid := 0
  keptOldNid := 0
  keptKeys := none
  keptOldKeys := none
  keptNid_and := rfl

def samplePdu : SigLowerTransportPdu where
  networkKey := sampleNetkey
  type := .controlMessage
  source := 0x1201
  destination := 0xFFFD
  transportPdu := hex "034b50057e400000010000"

example : (initWithEncodeLowerTransportPdu sampleCrypto samplePdu .networkPdu 1 0
    ⟨0x12345678, false⟩).map (·.pduData) =
      some (hex "68eca487516765b5e5bfdacbaf6cb7fb6bff871f035444ce83a670df") := by
  decide +kernel

theorem sampleShares : SharesKeys sampleCrypto sampleNetkey sampleNetkey :=
  sharesKeys_of_phase (by decide) rfl rfl

/-! ### The decoder -/

/-- What is encrypted with the current keys of the receiver under a valid index is decoded; what
names no key or no valid index is not. -/
theorem networkPdu_decode (cr : NetworkCrypto) (receiver : NetkeyObject)
    (hkeys : (receiver.keys cr).isSome) (ivIndex : SigIvIndex) (pduType : SigPduType) :
    (∀ (pdu : SigLowerTransportPdu) (sequence : BitVec 32) (ttl : Byte) (sent : SigIvIndex),
      pduType = .networkPdu ∨ pduType = .proxyConfiguration →
      SharesKeys cr pdu.networkKey receiver → cr.Decrypts pdu.decryptedData →
      pdu.transportPdu ≠ [] → ValidIndex ivIndex sent.index →
      RoundTrips cr pdu pduType sequence ttl sent receiver ivIndex) ∧
    ∀ data, ¬ NamesKeyAndIndex cr receiver ivIndex data →
      initWithDecodePduData cr data pduType receiver ivIndex = .nil := by
  obtain ⟨keys, hsome⟩ := Option.isSome_iff_exists.mp hkeys
  constructor
  · intro pdu sequence ttl sent htype hshares hdecrypts hne hindex
    exact roundTrips hsome htype hshares hdecrypts hne hindex sequence ttl
  · intro data h
    exact decode_of_not_names hkeys h pduType

/-- The index before, while an update is active, and a NID that no key has. -/
theorem networkPdu_decode_sample :
    RoundTrips sampleCrypto samplePdu .networkPdu 1 0 ⟨0x12345678, false⟩ sampleNetkey
        ⟨0x12345679, true⟩ ∧
      initWithDecodePduData sampleCrypto (List.replicate 14 0) .networkPdu sampleNetkey
        ⟨0x12345679, true⟩ = .nil :=
  ⟨(networkPdu_decode sampleCrypto sampleNetkey (by decide +kernel) ⟨0x12345679, true⟩
      .networkPdu).1 samplePdu 1 0 ⟨0x12345678, false⟩ (.inl rfl) sampleShares
      (sampleCrypto_decrypts _) (by decide +kernel) (.inr (by decide)),
    (networkPdu_decode sampleCrypto sampleNetkey (by decide +kernel) ⟨0x12345679, true⟩
      .networkPdu).2 _ fun h => absurd h.1 (by
        rintro (h | ⟨h, -⟩)
        · exact absurd h (by decide +kernel)
        · exact h (by decide +kernel))⟩

/-- The same PDU without an update: the index before the one of the receiver is not tried. -/
theorem networkPdu_refuted :
    SharesKeys sampleCrypto samplePdu.networkKey sampleNetkey ∧
      sampleCrypto.Decrypts samplePdu.decryptedData ∧
      ¬ RoundTrips sampleCrypto samplePdu .networkPdu 1 0 ⟨0x12345679 - 1, false⟩ sampleNetkey
        ⟨0x12345679, false⟩ := by
  refine ⟨sampleShares, sampleCrypto_decrypts _, ?_⟩
  rintro ⟨encoded, decoded, hencode, hdecode, -⟩
  have hdata : (initWithEncodeLowerTransportPdu sampleCrypto samplePdu .networkPdu 1 0
      ⟨0x12345679 - 1, false⟩).map (iviOf ·.pduData) = some 0 := by
    decide +kernel
  rw [hencode] at hdata
  have hivi : iviOf encoded.pduData = 0 := Option.some.inj hdata
  have hnames : ¬ NamesKeyAndIndex sampleCrypto sampleNetkey ⟨0x12345679, false⟩
      encoded.pduData := by
    rintro ⟨-, index, rfl | ⟨hactive, -⟩, hparity⟩
    · rw [hivi] at hparity
      exact absurd hparity (by decide)
    · cases hactive
  rw [decode_of_not_names (by decide +kernel) hnames] at hdecode
  cases hdecode

end PirMesh.NetworkPdu
