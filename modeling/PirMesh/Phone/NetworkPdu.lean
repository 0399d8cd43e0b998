import PirMesh.Phone.ProxyProtocol
import PirMesh.Phone.SecureBeacon
import PirMesh.Phone.SegmentQueue

/-! # Phone — Network PDUs (`SigPdu.m`, `SigModel.m`, `OpenSSLHelper.m`)

The head of a network PDU (CTL, TTL, SEQ, SRC) is obfuscated, the rest is encrypted.  The decoder
collects the key sets whose NID is that of the PDU, takes the IV index from the IVI, and tries one
key set after the other.  For the old NID it collects the new keys, and the encoder writes the new
NID whatever keys it takes. -/

namespace PirMesh.NetworkPdu

open LibTools ProxyProtocol
open LowerTransport (OpenSSLHelper SigLowerTransportPduType)

/-! ### Primitives -/

structure NetworkCrypto extends OpenSSLHelper where
  calculateCMAC (data key : List Byte) : List Byte
  calculateECB (data key : List Byte) : List Byte
  /-- `nil` where the MIC is not the one of the data. -/
  calculateDecryptedCCM (data key nonce mic : List Byte) : Option (List Byte)
  length_calculateCMAC : ∀ data key, (calculateCMAC data key).length = 16
  length_calculateECB : ∀ data key, (calculateECB data key).length = 16

/-- The octets of the second one are taken again from the start when they are too few. -/
def xor (someData otherData : List Byte) : List Byte :=
  someData.mapIdx fun i b => b ^^^ otherData.getD (i % otherData.length) 0

@[simp] theorem length_xor (someData otherData : List Byte) :
    (xor someData otherData).length = someData.length := by
  simp [xor]

theorem xor_xor (someData otherData : List Byte) :
    xor (xor someData otherData) otherData = someData := by
  refine List.ext_getElem (by simp) fun i _ _ => ?_
  simp only [xor, List.getElem_mapIdx]
  rw [BitVec.xor_assoc, BitVec.xor_self, BitVec.xor_zero]

def bigEndian32 (v : BitVec 32) : List Byte :=
  [(v >>> 24).setWidth 8, (v >>> 16).setWidth 8, (v >>> 8).setWidth 8, v.setWidth 8]

def bigEndian16 (v : BitVec 16) : List Byte := [(v >>> 8).setWidth 8, v.setWidth 8]

namespace NetworkCrypto

variable (cr : NetworkCrypto)

def calculateSalt (data : List Byte) : List Byte := cr.calculateCMAC data (List.replicate 16 0)

/-- The salt is that of `smk2`. -/
def calculateK2 (n p : List Byte) : List Byte :=
  let t := cr.calculateCMAC n (cr.calculateSalt [0x73, 0x6D, 0x6B, 0x32])
  let t1 := cr.calculateCMAC (p.take 1 ++ [1]) t
  let t2 := cr.calculateCMAC (t1 ++ p ++ [2]) t
  let t3 := cr.calculateCMAC (t2 ++ p ++ [3]) t
  let finalData := t1 ++ t2 ++ t3
  (finalData.getD 15 0 &&& 0x7F) :: finalData.drop 16

theorem length_calculateK2 (n p : List Byte) : (cr.calculateK2 n p).length = 33 := by
  simp [calculateK2, cr.length_calculateCMAC]

/-- `pecb` of `obfuscate` and `deobfuscate`. -/
def pecb (privacyRandom : List Byte) (ivIndex : BitVec 32) (privacyKey : List Byte) : List Byte :=
  (cr.calculateECB ([0, 0, 0, 0, 0] ++ bigEndian32 ivIndex ++ privacyRandom) privacyKey).take 6

/-- Less than 7 octets of the random are an exception. -/
def obfuscate (data random : List Byte) (ivIndex : BitVec 32) (privacyKey : List Byte) :
    Option (List Byte) :=
  (subdataWithRange random 0 7).map fun privacyRandom =>
    xor data (cr.pecb privacyRandom ivIndex privacyKey)

/-- Of a PDU of 14 octets or more. -/
def deobfuscate (data : List Byte) (ivIndex : BitVec 32) (privacyKey : List Byte) : List Byte :=
  xor ((data.drop 1).take 6) (cr.pecb ((data.drop 7).take 7) ivIndex privacyKey)

/-- What is encrypted is decrypted with the same key and nonce. -/
def Decrypts (data : List Byte) : Prop :=
  ∀ key nonce : List Byte, ∀ micSize : ℕ,
    key.length = 16 → nonce.length = 13 → micSize = 4 ∨ micSize = 8 →
    cr.calculateDecryptedCCM ((cr.calculateCCM data key nonce micSize []).take data.length) key
      nonce ((cr.calculateCCM data key nonce micSize []).drop data.length) = some data

end NetworkCrypto

/-! ### Keys -/

/-- The keys that network PDUs are secured with. -/
structure SigNetkeyDerivaties where
  encryptionKey : List Byte
  privacyKey : List Byte
  length_encryptionKey : encryptionKey.length = 16
  deriving DecidableEq

def initWithNetkeyData (cr : NetworkCrypto) (key : List Byte) : SigNetkeyDerivaties where
  encryptionKey := ((cr.calculateK2 key [0]).drop 1).take 16
  privacyKey := ((cr.calculateK2 key [0]).drop 17).take 16
  length_encryptionKey := by simp [cr.length_calculateK2]

/-- A key with what its getters have kept, which stays when the text changes. -/
structure NetkeyObject extends SigNetkeyModel where
  keptNid : Byte
  keptOldNid : Byte
  keptKeys : Option SigNetkeyDerivaties
  keptOldKeys : Option SigNetkeyDerivaties
  keptNid_and : keptNid &&& 0x7F = keptNid

/-- A text that is nil, empty or all zeros is no key. -/
def keyData : Option (List Char) → Option (List Byte)
  | none => none
  | some text =>
    if text ≠ [] ∧ text ≠ List.replicate 32 '0' then some (nsstringToHex text) else none

/-- The getters `nid` and `oldNid`. -/
def nidGetter (cr : NetworkCrypto) (kept : Byte) (text : Option (List Char)) : Byte :=
  if kept ≠ 0 then kept
  else match keyData text with
    | some key => (cr.calculateK2 key [0]).getD 0 0 &&& 0x7F
    | none => kept

/-- The getters `keys` and `oldKeys`. -/
def keysGetter (cr : NetworkCrypto) (kept : Option SigNetkeyDerivaties)
    (text : Option (List Char)) : Option SigNetkeyDerivaties :=
  kept.or ((keyData text).map (initWithNetkeyData cr))

namespace NetkeyObject

variable (cr : NetworkCrypto) (networkKey : NetkeyObject)

def nid : Byte := nidGetter cr networkKey.keptNid networkKey.key

def oldNid : Byte := nidGetter cr networkKey.keptOldNid networkKey.oldKey

def keys : Option SigNetkeyDerivaties := keysGetter cr networkKey.keptKeys networkKey.key

def oldKeys : Option SigNetkeyDerivaties := keysGetter cr networkKey.keptOldKeys networkKey.oldKey

def transmitKeys : Option SigNetkeyDerivaties :=
  if networkKey.phase = .distributingKeys then networkKey.oldKeys cr else networkKey.keys cr

/-- A NID has 7 bits. -/
theorem nid_and : networkKey.nid cr &&& 0x7F = networkKey.nid cr := by
  have hmask : ∀ b : Byte, b &&& 0x7F &&& 0x7F = b &&& 0x7F := by decide
  unfold nid nidGetter
  split_ifs
  · exact networkKey.keptNid_and
  · split
    · exact hmask _
    · exact networkKey.keptNid_and

end NetkeyObject

/-! ### PDUs -/

/-- What the encoder reads of a PDU of the lower transport layer. -/
structure SigLowerTransportPdu where
  networkKey : NetkeyObject
  type : SigLowerTransportPduType
  source : BitVec 16
  destination : BitVec 16
  transportPdu : List Byte

structure SigNetworkPdu where
  networkKey : NetkeyObject
  pduData : List Byte
  ivi : Byte
  nid : Byte
  type : SigLowerTransportPduType
  ttl : Byte
  sequence : BitVec 32
  source : BitVec 16
  destination : BitVec 16
  transportPdu : List Byte

def typeValue : SigLowerTransportPduType → Byte
  | .accessMessage => 0
  | .controlMessage => 1

def getNetMicSizeOfLowerTransportPduType : SigLowerTransportPduType → ℕ
  | .accessMessage => 4
  | .controlMessage => 8

/-- Of a type that has none it is that of a network PDU. -/
def getNonceIdOfSigPduType : SigPduType → Byte
  | .proxyConfiguration => 0x03
  | _ => 0x00

/-- The nonce of a configuration of the proxy has no CTL and no TTL. -/
def networkNonce (pduType : SigPduType) (deobfuscatedData : List Byte) (index : BitVec 32) :
    List Byte :=
  let nonce := [getNonceIdOfSigPduType pduType] ++ deobfuscatedData ++ [0, 0] ++ bigEndian32 index
  if pduType = .proxyConfiguration then nonce.set 1 0 else nonce

theorem length_networkNonce (pduType : SigPduType) {deobfuscatedData : List Byte}
    (h : deobfuscatedData.length = 6) (index : BitVec 32) :
    (networkNonce pduType deobfuscatedData index).length = 13 := by
  unfold networkNonce
  dsimp only
  split_ifs <;> simp [h, bigEndian32]

/-! ### Encoding -/

/-- CTL, TTL, SEQ and SRC. -/
def deobfuscatedHead (type : SigLowerTransportPduType) (ttl : Byte) (sequence : BitVec 32)
    (source : BitVec 16) : List Byte :=
  [(typeValue type <<< 7) ||| (ttl &&& 0x7F)] ++ (bigEndian32 sequence).drop 1 ++
    bigEndian16 source

/-- `decryptedData` of the encoder. -/
def SigLowerTransportPdu.decryptedData (pdu : SigLowerTransportPdu) : List Byte :=
  bigEndian16 pdu.destination ++ pdu.transportPdu

/-- A key that is nil has no octets. -/
def initWithEncodeLowerTransportPdu (cr : NetworkCrypto) (lowerTransportPdu : SigLowerTransportPdu)
    (pduType : SigPduType) (sequence : BitVec 32) (ttl : Byte) (ivIndex : SigIvIndex) :
    Option SigNetworkPdu :=
  let index := ivIndex.index
  let networkKey := lowerTransportPdu.networkKey
  let ivi : Byte := (index &&& 0x01).setWidth 8
  let nid := networkKey.nid cr
  let type := lowerTransportPdu.type
  let iviNid := (ivi <<< 7) ||| (nid &&& 0x7F)
  let deobfuscatedData := deobfuscatedHead type ttl sequence lowerTransportPdu.source
  let keys := networkKey.transmitKeys cr
  let encryptedData := cr.calculateCCM lowerTransportPdu.decryptedData
    (keys.elim [] (·.encryptionKey)) (networkNonce pduType deobfuscatedData index)
    (getNetMicSizeOfLowerTransportPduType type) []
  (cr.obfuscate deobfuscatedData encryptedData index (keys.elim [] (·.privacyKey))).map
    fun obfuscatedData =>
      { networkKey := networkKey
        pduData := iviNid :: (obfuscatedData ++ encryptedData)
        ivi := ivi
        nid := nid
        type := type
        ttl := ttl
        sequence := sequence
        source := lowerTransportPdu.source
        destination := lowerTransportPdu.destination
        transportPdu := lowerTransportPdu.transportPdu }

/-! ### Decoding -/

inductive Decoded where
  | exception
  | nil
  | pdu (networkPdu : SigNetworkPdu)

def iviOf (pdu : List Byte) : Byte := pdu.getD 0 0 >>> 7

def nidOf (pdu : List Byte) : Byte := pdu.getD 0 0 &&& 0x7F

/-- `addObject:` of nil is an exception. -/
def keySets (cr : NetworkCrypto) (networkKey : NetkeyObject) (nid : Byte) :
    Option (List SigNetkeyDerivaties) :=
  (if nid = networkKey.nid cr then (networkKey.keys cr).map ([·]) else some []).bind fun keySets =>
    if networkKey.oldKeys cr ≠ none ∧ networkKey.oldNid cr = nid then
      -- not the old keys
      (networkKey.keys cr).map fun keys => keySets ++ [keys]
    else some keySets

/-- The IV index that a PDU with this IVI is decoded with. -/
def indexFor (ivIndex : SigIvIndex) (ivi : Byte) : Option (BitVec 32) :=
  if ivi.setWidth 32 ≠ ivIndex.index &&& 0x01 then
    if ivIndex.updateActive ∧ 1 < ivIndex.index then some (ivIndex.index - 1) else none
  else some ivIndex.index

/-- One turn of the loop; `none` is `continue`. -/
def decodeWithKeys (cr : NetworkCrypto) (pdu : List Byte) (pduType : SigPduType)
    (networkKey : NetkeyObject) (index : BitVec 32) (keys : SigNetkeyDerivaties) :
    Option Decoded :=
  let deobfuscatedData := cr.deobfuscate pdu index keys.privacyKey
  let byte : ℕ → Byte := fun i => deobfuscatedData.getD i 0
  let ctl := byte 0 >>> 7
  if ctl ≠ 0 ∧ pdu.length < 18 then none
  else
    let type := if ctl = 0 then SigLowerTransportPduType.accessMessage else .controlMessage
    let micOffset := pdu.length - getNetMicSizeOfLowerTransportPduType type
    match cr.calculateDecryptedCCM ((pdu.drop 7).take (micOffset - 7)) keys.encryptionKey
      (networkNonce pduType deobfuscatedData index) (pdu.drop micOffset) with
    | none | some [] => none
    -- `subdataWithRange` of a negative length
    | some [_] => some .exception
    | some (decryptedData0 :: decryptedData1 :: transportPdu) =>
      some <| .pdu
        { networkKey := networkKey
          pduData := pdu
          ivi := iviOf pdu
          nid := nidOf pdu
          type := type
          ttl := byte 0 &&& 0x7F
          sequence := (byte 1).setWidth 32 <<< 16 ||| (byte 2).setWidth 32 <<< 8 |||
            (byte 3).setWidth 32
          source := (byte 4).setWidth 16 <<< 8 ||| (byte 5).setWidth 16
          destination := decryptedData0.setWidth 16 <<< 8 ||| decryptedData1.setWidth 16
          transportPdu := transportPdu }

def decodeWithKeySets (cr : NetworkCrypto) (pdu : List Byte) (pduType : SigPduType)
    (networkKey : NetkeyObject) (index : BitVec 32) : List SigNetkeyDerivaties → Decoded
  | [] => .nil
  | keys :: keySets =>
    match decodeWithKeys cr pdu pduType networkKey index keys with
    | some decoded => decoded
    | none => decodeWithKeySets cr pdu pduType networkKey index keySets

/-- The initializer without an IV index takes that of the key. -/
def initWithDecodePduData (cr : NetworkCrypto) (pdu : List Byte) (pduType : SigPduType)
    (networkKey : NetkeyObject) (ivIndex : SigIvIndex) : Decoded :=
  if pduType ≠ .networkPdu ∧ pduType ≠ .proxyConfiguration then .nil
  else if pdu.length < 14 then .nil
  else
    match keySets cr networkKey (nidOf pdu) with
    | none => .exception
    | some [] => .nil
    | some keySets =>
      match indexFor ivIndex (iviOf pdu) with
      | none => .nil
      | some index => decodeWithKeySets cr pdu pduType networkKey index keySets

end PirMesh.NetworkPdu
