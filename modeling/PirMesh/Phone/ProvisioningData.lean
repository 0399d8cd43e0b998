import PirMesh.Keys.Invariant
import PirMesh.Keys.Table
import PirMesh.Phone.SecureBeacon
import PirMesh.Phone.SegmentQueue
import PirMesh.Prov.GattSpec

/-! # Phone — Provisioning data (`SigProvisioningData.m`, `SigProvisioningManager.m`)

The phone sends the network key, its index, the flags, the IV index and the address of a new node.
The index and the flags are those of the key that it was asked for, the octets of the key are those
of the current one.  The device takes its network from what it decrypts.

What the device installs is what the phone wrote, so the two differ where the phone wrote another
key or other flags than those it was asked for, or an update of IV index 0. -/

namespace PirMesh

open Nor (Byte ofLE)
open LibTools LowerTransport

/-! ### The phone -/

structure SigIndexedNetkeyModel extends SigNetkeyModel where
  index : BitVec 16
  deriving DecidableEq, Repr

/-- What provisioning reads of `SigDataSource`. -/
structure ProvisioningSource where
  netKeys : List SigIndexedNetkeyModel
  /-- The one that was set last. -/
  setNetkeyModel : Option SigIndexedNetkeyModel
  ivIndex : List Char

namespace SigIndexedNetkeyModel

variable (net : SigIndexedNetkeyModel)

/-- The octets of the key; there are none of nil. -/
def keyData : List Byte := (net.key.map nsstringToHex).getD []

/-- The getter of the IV index, where the data source has this text. -/
def getIvIndex (text : List Char) : SigIvIndex :=
  match net.ivIndex with
  | some ivIndex =>
    if ivIndex.index = uint32From16String text then ivIndex
    else ⟨uint32From16String text, false⟩
  | none => ⟨uint32From16String text, false⟩

end SigIndexedNetkeyModel

namespace ProvisioningSource

variable (source : ProvisioningSource)

/-- `curNetkeyModel`: the first key as long as none is set. -/
def curNetkeyModel : Option SigIndexedNetkeyModel := source.setNetkeyModel.or source.netKeys.head?

def curNetKey : List Byte := (source.curNetkeyModel.map (·.keyData)).getD []

/-- The loop of `provisionWithUnicastAddress:networkKey:netkeyIndex:provisionSuccess:fail:`. -/
def provisionNet (networkKey : List Byte) (netkeyIndex : BitVec 16) :
    Option SigIndexedNetkeyModel :=
  source.netKeys.find? fun net => decide (networkKey = net.keyData ∧ netkeyIndex = net.index)

end ProvisioningSource

structure SigProvisioningData where
  networkKey : SigIndexedNetkeyModel
  ivIndex : SigIvIndex
  unicastAddress : BitVec 16
  deriving DecidableEq, Repr

def bigEndian32 (v : BitVec 32) : List Byte :=
  [(v >>> 24).setWidth 8, (v >>> 16).setWidth 8, (v >>> 8).setWidth 8, v.setWidth 8]

namespace SigProvisioningData

/-- `prepareWithNetwork:networkKey:unicastAddress:`. -/
def prepareWithNetwork (source : ProvisioningSource) (networkKey : SigIndexedNetkeyModel)
    (unicastAddress : BitVec 16) : SigProvisioningData :=
  ⟨networkKey, networkKey.getIvIndex source.ivIndex, unicastAddress⟩

variable (data : SigProvisioningData)

def flags : Byte :=
  (if data.networkKey.phase = .finalizing then 1 else 0) |||
    if data.ivIndex.updateActive then 2 else 0

/-- `mData` of `encryptedProvisioningDataWithMic`. -/
def mData (source : ProvisioningSource) : List Byte :=
  source.curNetKey ++ bigEndian data.networkKey.index ++ [data.flags] ++
    bigEndian32 data.ivIndex.index ++ bigEndian data.unicastAddress

def encryptedProvisioningDataWithMic (ssl : OpenSSLHelper) (sessionKey sessionNonce : List Byte)
    (source : ProvisioningSource) : List Byte :=
  ssl.calculateCCM (data.mData source) sessionKey sessionNonce 8 []

end SigProvisioningData

/-- The data of a call, where it finds its key. -/
def provisionWithUnicastAddress (source : ProvisioningSource) (unicastAddress : BitVec 16)
    (networkKey : List Byte) (netkeyIndex : BitVec 16) : Option SigProvisioningData :=
  (source.provisionNet networkKey netkeyIndex).map fun net =>
    .prepareWithNetwork source net unicastAddress

/-! ### The network of a node (`mesh_node.c`, `app_provison.c`) -/

/-- `provison_net_info_str`. -/
structure ProvisonNetInfo where
  netWorkKey : Key
  keyIndex : BitVec 16
  flags : Byte
  ivIndex : List Byte
  unicastAddress : BitVec 16

def ProvisonNetInfo.ofBytes (info : List Byte) : ProvisonNetInfo where
  netWorkKey := Vector.ofFn fun i => info.getD i 0
  keyIndex := BitVec.ofNat 16 (ofLE ((info.drop 16).take 2))
  flags := info.getD 18 0
  ivIndex := (info.drop 19).take 4
  unicastAddress := BitVec.ofNat 16 (netInfoUnicast info)

/-- How the library is told an IV index. -/
inductive IviSet where
  /-- `iv_update_set_with_update_flag_ture`. -/
  | update (ivIndex : List Byte)
  /-- `mesh_iv_idx_init`, with or without a reset of the sequence number. -/
  | init (ivIndex : List Byte) (rstSno : Bool)
  deriving DecidableEq, Repr

structure NodeNet (Mat : Type) where
  meshKey : MeshKey Mat
  eleAdrPrimary : BitVec 16
  /-- `iv_idx_st.cur`. -/
  cur : List Byte
  ivi : Option IviSet

def provisionSetIviPara (info : ProvisonNetInfo) (cur : List Byte) : IviSet :=
  if info.flags.getLsbD 1 ∧ info.ivIndex ≠ [0, 0, 0, 0] then .update info.ivIndex
  else .init info.ivIndex (decide (info.ivIndex ≠ cur))

variable {Mat : Type} (D : KeyDeriv Mat)

/-- `mesh_provision_par_set`, behind the check of the address. -/
def meshProvisionParSet (info : ProvisonNetInfo) (net : NodeNet Mat) : NodeNet Mat :=
  { net with
    eleAdrPrimary := info.unicastAddress
    meshKey := meshNetKeyAddByProvision D info.netWorkKey info.keyIndex (info.flags.getLsbD 0)
      net.meshKey
    ivi := some (provisionSetIviPara info net.cur) }

/-- The network of a device behind a PDU. -/
def installPdu (C : ProvCrypto) (node : ProvNode) (net : NodeNet Mat) (p : List Byte) :
    NodeNet Mat :=
  match (dispatchPbGatt C node p).2.installed with
  | some info => meshProvisionParSet D (.ofBytes info) net
  | none => net

/-! ### When phone and device have the same network -/

open Nor (Byte ofLE toLE)

variable {Mat : Type} {D : KeyDeriv Mat}

/-! ### The octets that the device turns around -/

theorem swapAt_append (l r : List Byte) (a b : Byte) :
    swapAt l.length (l ++ a :: b :: r) = l ++ b :: a :: r := by
  unfold swapAt
  simp [List.getD_eq_getElem?_getD]

theorem take_swapAt {i n : Nat} (h : i + 1 < n) (l : List Byte) :
    (swapAt i l).take n = swapAt i (l.take n) := by
  have hgetD : ∀ j < n, (l.take n).getD j 0 = l.getD j 0 := by
    intro j hj
    rw [List.getD_eq_getElem?_getD, List.getElem?_take_of_lt hj, List.getD_eq_getElem?_getD]
  unfold swapAt
  rw [List.take_set, List.take_set, hgetD _ h, hgetD _ (Nat.lt_of_succ_lt h)]

/-- The plaintext of a key, an index, flags, an IV index and an address. -/
def netPlaintext (key : List Byte) (index : BitVec 16) (flags : Byte) (ivIndex : BitVec 32)
    (address : BitVec 16) : List Byte :=
  key ++ bigEndian index ++ [flags] ++ bigEndian32 ivIndex ++ bigEndian address

/-- The same as the device keeps it. -/
def netInfoBytes (key : List Byte) (index : BitVec 16) (flags : Byte) (ivIndex : BitVec 32)
    (address : BitVec 16) : List Byte :=
  key ++ [index.setWidth 8, (index >>> 8).setWidth 8] ++ [flags] ++ bigEndian32 ivIndex ++
    [address.setWidth 8, (address >>> 8).setWidth 8]

theorem swapAt_netPlaintext {key : List Byte} (hkey : key.length = 16) (index : BitVec 16)
    (flags : Byte) (ivIndex : BitVec 32) (address : BitVec 16) :
    swapAt 23 (swapAt 16 (netPlaintext key index flags ivIndex address)) =
      netInfoBytes key index flags ivIndex address := by
  have hindex := swapAt_append key ([flags] ++ bigEndian32 ivIndex ++ bigEndian address)
    ((index >>> 8).setWidth 8) (index.setWidth 8)
  rw [hkey] at hindex
  have hfirst : swapAt 16 (netPlaintext key index flags ivIndex address) =
      (key ++ [index.setWidth 8, (index >>> 8).setWidth 8] ++ [flags] ++ bigEndian32 ivIndex) ++
        (address >>> 8).setWidth 8 :: address.setWidth 8 :: [] := by
    simpa [netPlaintext, bigEndian] using hindex
  have haddress := swapAt_append (key ++ [index.setWidth 8, (index >>> 8).setWidth 8] ++ [flags] ++
    bigEndian32 ivIndex) [] ((address >>> 8).setWidth 8) (address.setWidth 8)
  have hlength : (key ++ [index.setWidth 8, (index >>> 8).setWidth 8] ++ [flags] ++
      bigEndian32 ivIndex).length = 23 := by
    simp [hkey, bigEndian32]
  rw [hlength] at haddress
  rw [hfirst, haddress]
  rfl

theorem ofLE_octets (v : BitVec 16) : ofLE [v.setWidth 8, (v >>> 8).setWidth 8] = v.toNat := by
  simp only [Nor.ofLE, BitVec.toNat_setWidth, BitVec.toNat_ushiftRight, Nat.shiftRight_eq_div_pow]
  have hv := v.isLt
  omega

theorem netInfoUnicast_netInfoBytes {key : List Byte} (hkey : key.length = 16) (index : BitVec 16)
    (flags : Byte) (ivIndex : BitVec 32) (address : BitVec 16) :
    netInfoUnicast (netInfoBytes key index flags ivIndex address) = address.toNat := by
  have hlength : (key ++ [index.setWidth 8, (index >>> 8).setWidth 8] ++ [flags] ++
      bigEndian32 ivIndex).length = 23 := by
    simp [hkey, bigEndian32]
  unfold netInfoUnicast netInfoBytes
  rw [List.drop_left' hlength]
  exact ofLE_octets address

/-- The fields of the octets. -/
theorem ofBytes_netInfoBytes {key : List Byte} (hkey : key.length = 16) (index : BitVec 16)
    (flags : Byte) (ivIndex : BitVec 32) (address : BitVec 16) :
    ProvisonNetInfo.ofBytes (netInfoBytes key index flags ivIndex address) =
      ⟨⟨key.toArray, hkey⟩, index, flags, bigEndian32 ivIndex, address⟩ := by
  generalize hinfo : netInfoBytes key index flags ivIndex address = info
  have hsplit : info = key ++ (index.setWidth 8 :: (index >>> 8).setWidth 8 :: flags ::
      (bigEndian32 ivIndex ++ [address.setWidth 8, (address >>> 8).setWidth 8])) := by
    rw [← hinfo]
    simp [netInfoBytes]
  have hdrop : ∀ n, info.drop (16 + n) = (index.setWidth 8 :: (index >>> 8).setWidth 8 :: flags ::
      (bigEndian32 ivIndex ++ [address.setWidth 8, (address >>> 8).setWidth 8])).drop n := by
    intro n
    rw [hsplit, ← List.drop_drop, List.drop_left' hkey]
  have hwork : (Vector.ofFn fun i : Fin 16 => info.getD i 0) = ⟨key.toArray, hkey⟩ := by
    ext i hi
    have hlt : i < key.length := hkey ▸ hi
    simp [hsplit, List.getD_eq_getElem?_getD, List.getElem?_append_left hlt,
      List.getElem?_eq_getElem hlt]
  have hflags : info.getD 18 0 = flags := by
    rw [hsplit, List.getD_eq_getElem?_getD, List.getElem?_append_right (by omega), hkey]
    rfl
  have hunicast : BitVec.ofNat 16 (netInfoUnicast info) = address := by
    rw [← hinfo, netInfoUnicast_netInfoBytes hkey, BitVec.ofNat_toNat, BitVec.setWidth_eq]
  have hindex : BitVec.ofNat 16 (ofLE ((info.drop 16).take 2)) = index := by
    have hpair : (info.drop 16).take 2 = [index.setWidth 8, (index >>> 8).setWidth 8] := by
      rw [hdrop 0]
      rfl
    rw [hpair, ofLE_octets, BitVec.ofNat_toNat, BitVec.setWidth_eq]
  have hiv : (info.drop 19).take 4 = bigEndian32 ivIndex := by
    rw [hdrop 3]
    rfl
  unfold ProvisonNetInfo.ofBytes
  rw [hwork, hflags, hunicast, hindex, hiv]

/-! ### The device -/

/-- **What is installed.** -/
structure Installs (net : NodeNet Mat) (key : List Byte) (index : BitVec 16)
    (keyRefresh updateActive : Bool) (ivIndex : BitVec 32) (address : BitVec 16) : Prop where
  address : net.eleAdrPrimary = address
  netKey : ∃ i, isMeshNetKeyExist net.meshKey index = some i ∧
    (net.meshKey.netKey i).old.key.toList = key ∧
    (net.meshKey.netKey i).old.keyPhase = if keyRefresh then .phase2 else .normal
  only : ∀ i, (net.meshKey.netKey i).old.valid = true → (net.meshKey.netKey i).old.index = index
  ivi : if updateActive then net.ivi = some (.update (bigEndian32 ivIndex))
    else ∃ rstSno, net.ivi = some (.init (bigEndian32 ivIndex) rstSno)

/-- The only valid row is the one that is found. -/
theorem exist_of_only {t : MeshKey Mat} {i : Fin netKeyMax} {index : BitVec 16}
    (h : HasNet t i index) (honly : ∀ k, k ≠ i → (t.netKey k).old.valid = false) :
    isMeshNetKeyExist t index = some i := by
  cases hexist : isMeshNetKeyExist t index with
  | none => exact absurd h (exist_none.mp hexist i)
  | some k =>
    by_cases hk : k = i
    · rw [hk]
    · have hvalid := (hasNet_of_exist hexist).1
      rw [honly k hk] at hvalid
      cases hvalid

/-- A table whose only key is `nk`, with its index and phase. -/
structure OneKey (t : MeshKey Mat) (i : Fin netKeyMax) (nk : Key) (index : BitVec 16)
    (phase : KeyPhase) : Prop where
  hasNet : HasNet t i index
  key : (t.netKey i).old.key = nk
  phase : (t.netKey i).old.keyPhase = phase
  only : ∀ k, k ≠ i → (t.netKey k).old.valid = false

theorem oneKey_add (nk : Key) (index : BitVec 16) (devKey : Key) :
    (meshNetKeySet D netkeyAdd nk index true (.empty D devKey)).st = .success ∧ ∃ i,
      OneKey (meshNetKeySet D netkeyAdd nk index true (.empty D devKey)).key i nk index
        .normal := by
  have hnone : isMeshNetKeyExist (MeshKey.empty D devKey) index = none :=
    exist_none.mpr fun i hi => Bool.false_ne_true hi.1
  obtain ⟨i, hi⟩ : ∃ i, meshNetKeyEmptySearch (MeshKey.empty D devKey) = some i := by
    cases hsearch : meshNetKeyEmptySearch (MeshKey.empty D devKey) with
    | some i => exact ⟨i, rfl⟩
    | none =>
      have hfalse : true = false := Slots.firstIdx_none.mp hsearch ⟨0, Nat.zero_lt_two⟩
      cases hfalse
  have hset : meshNetKeySet D netkeyAdd nk index true (.empty D devKey) =
      ⟨.success, (MeshKey.empty D devKey).setOld i (netKeySet2 D (.zero D) nk index), true⟩ := by
    unfold meshNetKeySet
    rw [if_pos rfl, hnone]
    dsimp only
    rw [hi]
    rfl
  rw [hset]
  have hself : ((MeshKey.empty D devKey).setOld i (netKeySet2 D (.zero D) nk index)).netKey i =
      ⟨netKeySet2 D (.zero D) nk index, .zero D⟩ := MeshKey.netKey_setRow_self ..
  refine ⟨rfl, i, ⟨?_, ?_⟩, ?_, ?_, ?_⟩
  · rw [hself]
    rfl
  · rw [hself]
    rfl
  · rw [hself]
    rfl
  · rw [hself]
    rfl
  · intro k hk
    rw [MeshKey.setOld, MeshKey.netKey_setRow_ne _ _ hk]
    rfl

/-- A key that comes with the refresh flag is in phase 2. -/
theorem OneKey.refresh {t : MeshKey Mat} {i : Fin netKeyMax} {nk : Key} {index : BitVec 16}
    (h : OneKey t i nk index .normal) :
    OneKey (meshNkUpdateSelfAndChange2phase2 D nk index t) i nk index .phase2 := by
  have hexist := exist_of_only h.hasNet h.only
  have hupdate : (meshNetKeySet D netkeyUpdate nk index false t).key =
      t.setRow i ⟨{ (t.netKey i).old with keyPhase := .phase1 },
        netKeySet2 D (t.netKey i).old nk index⟩ := by
    unfold meshNetKeySet
    rw [if_neg (by decide), if_pos rfl, hexist]
    dsimp only
    rw [if_pos h.phase, phase1_setNew h.phase]
  unfold meshNkUpdateSelfAndChange2phase2
  rw [hexist]
  dsimp only
  rw [hupdate, MeshKey.netKey_setRow_self]
  unfold MeshKey.setOld
  rw [MeshKey.netKey_setRow_self]
  refine ⟨⟨?_, ?_⟩, ?_, ?_, ?_⟩
  · rw [MeshKey.netKey_setRow_self]
    exact h.hasNet.1
  · rw [MeshKey.netKey_setRow_self]
    exact h.hasNet.2
  · rw [MeshKey.netKey_setRow_self]
    exact h.key
  · rw [MeshKey.netKey_setRow_self]
  · intro k hk
    rw [MeshKey.netKey_setRow_ne _ _ hk, MeshKey.netKey_setRow_ne _ _ hk]
    exact h.only k hk

theorem oneKey_addByProvision (nk : Key) (index : BitVec 16) (keyFreshFlag : Bool)
    (devKey : Key) : ∃ i,
      OneKey (meshNetKeyAddByProvision D nk index keyFreshFlag (.empty D devKey)) i nk index
        (if keyFreshFlag then .phase2 else .normal) := by
  obtain ⟨hst, i, hadd⟩ := oneKey_add (D := D) nk index devKey
  unfold meshNetKeyAddByProvision
  dsimp only
  rw [if_pos hst]
  cases keyFreshFlag with
  | false => exact ⟨i, hadd⟩
  | true => exact ⟨i, hadd.refresh⟩

/-- A device before the provisioning data, without a network. -/
structure Awaits (D : KeyDeriv Mat) (node : ProvNode) (net : NodeNet Mat) : Prop where
  state : node.provisonRcvState = .devRandom
  empty : ∃ devKey, net.meshKey = .empty D devKey

/-- The octets of provisioning data that the phone encrypted, decrypted by the device. -/
def Undone (C : ProvCrypto) (ssl : OpenSSLHelper) (sessionKey sessionNonce : List Byte)
    (node : ProvNode) : Prop :=
  ∀ data : List Byte, data.length = 25 →
    let keys := C.sessionKey (Reassembly.read node.devInput 0 145) node.devEdch node.proRandom
      node.devRandom
    (C.msgDec keys.1 (keys.2.drop 3) (ssl.calculateCCM data sessionKey sessionNonce 8
      [])).2.take 25 = data

variable {C : ProvCrypto} {ssl : OpenSSLHelper} {sessionKey sessionNonce : List Byte}
variable {node : ProvNode} {net : NodeNet Mat}

theorem length_netPlaintext {key : List Byte} (hkey : key.length = 16) (index : BitVec 16)
    (flags : Byte) (ivIndex : BitVec 32) (address : BitVec 16) :
    (netPlaintext key index flags ivIndex address).length = 25 := by
  simp [netPlaintext, bigEndian, bigEndian32, hkey]

/-- The device takes the data. -/
theorem installed_netPlaintext (hawaits : Awaits D node net)
    (hundone : Undone C ssl sessionKey sessionNonce node) {key : List Byte}
    (hkey : key.length = 16) (index : BitVec 16) (flags : Byte) (ivIndex : BitVec 32)
    {address : BitVec 16} (hunicast : isUnicastAdr address.toNat = true) :
    (dispatchPbGatt C node (proData :: ssl.calculateCCM
      (netPlaintext key index flags ivIndex address) sessionKey sessionNonce 8 [])).2.installed =
        some (netInfoBytes key index flags ivIndex address) := by
  generalize hpdu : proData :: ssl.calculateCCM (netPlaintext key index flags ivIndex address)
    sessionKey sessionNonce 8 [] = p
  have hlength : p.length = 34 := by
    rw [← hpdu, List.length_cons, ssl.length_calculateCCM, length_netPlaintext hkey]
  have htype : provType p = proData := by
    rw [← hpdu]
    change proData &&& 0x3f = proData
    decide
  have hbody : provBody p 33 = ssl.calculateCCM (netPlaintext key index flags ivIndex address)
      sessionKey sessionNonce 8 [] := by
    have htail : p.drop 1 = ssl.calculateCCM (netPlaintext key index flags ivIndex address)
        sessionKey sessionNonce 8 [] := by
      rw [← hpdu]
      rfl
    rw [provBody, htail]
    refine List.take_of_length_le ?_
    rw [ssl.length_calculateCCM, length_netPlaintext hkey]
  have hdec : (decProvData C node p).2.take 25 = netInfoBytes key index flags ivIndex address := by
    unfold decProvData meshProvSecMsgDec
    rw [hbody]
    dsimp only
    rw [take_swapAt (by decide), take_swapAt (by decide),
      hundone _ (length_netPlaintext hkey ..), swapAt_netPlaintext hkey]
  have hcheck : provCalcCmdLenChk proData (BitVec.ofNat 8 p.length) = true := by
    rw [hlength]
    decide
  have hvalid : provCmdIsValid proData = true := rfl
  have hdata : ∀ devKey, decProvData C { node with devKey } p = decProvData C node p :=
    fun _ => rfl
  unfold dispatchPbGatt
  rw [htype, hvalid, hcheck, hawaits.state]
  change (rcvData C node p).2.installed = _
  unfold rcvData meshProvisionParHandle
  dsimp only
  rw [hdata, hdec, netInfoUnicast_netInfoBytes hkey, if_pos hunicast]

theorem bigEndian32_eq_zero {ivIndex : BitVec 32} :
    bigEndian32 ivIndex = [0, 0, 0, 0] ↔ ivIndex = 0 := by
  constructor
  · intro h
    have hread : uint32FromBytes (bigEndian32 ivIndex).reverse = ivIndex :=
      uint32FromBytes_octets ivIndex
    rw [← hread, h]
    decide
  · intro h
    rw [h]
    decide

/-- The device has the network of the octets, but for an update of IV index 0. -/
theorem installs_iff (hawaits : Awaits D node net)
    (hundone : Undone C ssl sessionKey sessionNonce node) {key : List Byte}
    (hkey : key.length = 16) (index : BitVec 16) (flags : Byte) (ivIndex : BitVec 32)
    {address : BitVec 16} (hunicast : isUnicastAdr address.toNat = true) :
    Installs (installPdu D C node net (proData :: ssl.calculateCCM
      (netPlaintext key index flags ivIndex address) sessionKey sessionNonce 8 [])) key index
        (flags.getLsbD 0) (flags.getLsbD 1) ivIndex address ↔
      ¬ (flags.getLsbD 1 = true ∧ ivIndex = 0) := by
  unfold installPdu
  rw [installed_netPlaintext hawaits hundone hkey index flags ivIndex hunicast]
  dsimp only
  rw [ofBytes_netInfoBytes hkey]
  obtain ⟨devKey, hempty⟩ := hawaits.empty
  unfold meshProvisionParSet provisionSetIviPara
  dsimp only
  rw [hempty, ← bigEndian32_eq_zero]
  obtain ⟨i, hone⟩ := oneKey_addByProvision (D := D) ⟨key.toArray, hkey⟩ index (flags.getLsbD 0)
    devKey
  constructor
  · intro h hupdate
    have hivi := h.ivi
    rw [if_pos hupdate.1] at hivi
    dsimp only at hivi
    rw [if_neg (fun hboth => hboth.2 hupdate.2)] at hivi
    cases hivi
  · intro h
    refine ⟨rfl, ⟨i, exist_of_only hone.hasNet hone.only, ?_, hone.phase⟩, ?_, ?_⟩
    · rw [hone.key]
      rfl
    · intro k hvalid
      by_cases hk : k = i
      · rw [hk]
        exact hone.hasNet.2
      · exact absurd hvalid (by rw [hone.only k hk]; exact Bool.false_ne_true)
    · dsimp only
      by_cases hupdate : flags.getLsbD 1 = true
      · rw [if_pos hupdate, if_pos ⟨hupdate, fun hzero => h ⟨hupdate, hzero⟩⟩]
      · rw [if_neg hupdate, if_neg (fun hboth => hupdate hboth.1)]
        exact ⟨_, rfl⟩

/-! ### Both sides -/

variable {source : ProvisioningSource}

/-- The flags of a key. -/
def ProvisioningSource.flagsOf (source : ProvisioningSource) (key : SigIndexedNetkeyModel) : Byte :=
  (SigProvisioningData.prepareWithNetwork source key 0).flags

/-- **Phone and device agree** on a key of the phone's network. -/
def NetAgrees (D : KeyDeriv Mat) (C : ProvCrypto) (ssl : OpenSSLHelper)
    (sessionKey sessionNonce : List Byte) (node : ProvNode) (net : NodeNet Mat)
    (source : ProvisioningSource) (key : SigIndexedNetkeyModel) (address : BitVec 16) : Prop :=
  ∃ data, provisionWithUnicastAddress source address key.keyData key.index = some data ∧
    data.mData source = netPlaintext key.keyData key.index (source.flagsOf key)
      (key.getIvIndex source.ivIndex).index address ∧
    Installs (installPdu D C node net (proData ::
        data.encryptedProvisioningDataWithMic ssl sessionKey sessionNonce source)) key.keyData
      key.index (decide (key.phase = .finalizing)) (key.getIvIndex source.ivIndex).updateActive
      (key.getIvIndex source.ivIndex).index address

/-- The current key has the octets of `key`, the first key with its octets and index has its
flags, and its IV index is not 0 in an update. -/
def KeyIsCurrent (source : ProvisioningSource) (key : SigIndexedNetkeyModel) : Prop :=
  source.curNetKey = key.keyData ∧
  (source.provisionNet key.keyData key.index).map source.flagsOf = some (source.flagsOf key) ∧
  ¬ ((key.getIvIndex source.ivIndex).updateActive = true ∧
    uint32From16String source.ivIndex = 0)

instance (source : ProvisioningSource) (key : SigIndexedNetkeyModel) :
    Decidable (KeyIsCurrent source key) :=
  inferInstanceAs (Decidable (_ ∧ _ ∧ ¬ (_ ∧ _)))

theorem getIvIndex_index (key : SigIndexedNetkeyModel) (text : List Char) :
    (key.getIvIndex text).index = uint32From16String text := by
  unfold SigIndexedNetkeyModel.getIvIndex
  split
  · split_ifs with hsame
    · exact hsame
    · rfl
  · rfl

theorem getLsbD_flagsOf (source : ProvisioningSource) (key : SigIndexedNetkeyModel) :
    (source.flagsOf key).getLsbD 0 = decide (key.phase = .finalizing) ∧
      (source.flagsOf key).getLsbD 1 = (key.getIvIndex source.ivIndex).updateActive := by
  have hflags : source.flagsOf key = (if key.phase = .finalizing then (1 : Byte) else 0) |||
      if (key.getIvIndex source.ivIndex).updateActive = true then 2 else 0 := rfl
  rw [hflags]
  by_cases hphase : key.phase = .finalizing
  · rw [if_pos hphase, decide_eq_true hphase]
    cases (key.getIvIndex source.ivIndex).updateActive <;> decide
  · rw [if_neg hphase, decide_eq_false hphase]
    cases (key.getIvIndex source.ivIndex).updateActive <;> decide

/-- Plaintexts differ where a key or the flags do. -/
theorem netPlaintext_inj {key key' : List Byte} {index : BitVec 16} {flags flags' : Byte}
    {ivIndex : BitVec 32} {address : BitVec 16}
    (h : netPlaintext key index flags ivIndex address =
      netPlaintext key' index flags' ivIndex address) : key = key' ∧ flags = flags' := by
  unfold netPlaintext at h
  rw [List.append_assoc, List.append_assoc, List.append_assoc, List.append_assoc, List.append_assoc,
    List.append_assoc] at h
  obtain ⟨hkey, hrest⟩ := List.append_inj' h (by simp [bigEndian, bigEndian32])
  rw [List.append_cancel_left_eq] at hrest
  exact ⟨hkey, (List.cons.inj hrest).1⟩

/-- **The exact condition.** -/
theorem netAgrees_iff (hawaits : Awaits D node net)
    (hundone : Undone C ssl sessionKey sessionNonce node) {key : SigIndexedNetkeyModel}
    (hmem : key ∈ source.netKeys) (hkey : key.keyData.length = 16) {address : BitVec 16}
    (hunicast : isUnicastAdr address.toNat = true) :
    NetAgrees D C ssl sessionKey sessionNonce node net source key address ↔
      KeyIsCurrent source key := by
  obtain ⟨first, hfirst⟩ : ∃ first, source.provisionNet key.keyData key.index = some first :=
    Option.isSome_iff_exists.mp (List.find?_isSome.mpr ⟨key, hmem, decide_eq_true ⟨rfl, rfl⟩⟩)
  have hfound := hfirst
  unfold ProvisioningSource.provisionNet at hfound
  have hmatches := List.find?_some hfound
  obtain ⟨-, hindex⟩ := of_decide_eq_true hmatches
  have hprovision : provisionWithUnicastAddress source address key.keyData key.index =
      some (.prepareWithNetwork source first address) := by
    unfold provisionWithUnicastAddress
    rw [hfirst]
    rfl
  have hplain : (SigProvisioningData.prepareWithNetwork source first address).mData source =
      netPlaintext source.curNetKey key.index (source.flagsOf first)
        (key.getIvIndex source.ivIndex).index address := by
    rw [getIvIndex_index, ← getIvIndex_index first, hindex]
    rfl
  obtain ⟨hrefresh, hupdate⟩ := getLsbD_flagsOf source key
  have hinstalls := installs_iff hawaits hundone hkey key.index (source.flagsOf key)
    (key.getIvIndex source.ivIndex).index hunicast
  rw [hrefresh, hupdate, getIvIndex_index] at hinstalls
  unfold NetAgrees KeyIsCurrent
  rw [hfirst, hprovision]
  constructor
  · intro h
    obtain ⟨data, hdata, hsame, hinstalled⟩ := h
    cases hdata
    rw [SigProvisioningData.encryptedProvisioningDataWithMic, hsame, getIvIndex_index] at hinstalled
    rw [hplain] at hsame
    obtain ⟨hcurrent, hflags⟩ := netPlaintext_inj hsame
    exact ⟨hcurrent, congrArg some hflags, hinstalls.mp hinstalled⟩
  · intro h
    obtain ⟨hcurrent, hflags, hzero⟩ := h
    rw [hcurrent, Option.some.inj hflags] at hplain
    refine ⟨_, rfl, hplain, ?_⟩
    rw [SigProvisioningData.encryptedProvisioningDataWithMic, hplain, getIvIndex_index]
    exact hinstalls.mpr hzero

/-! ### At an input -/

/-- A key of sixteen equal octets. -/
def sampleNetkey (digit : Char) (index : BitVec 16) : SigIndexedNetkeyModel where
  key := some (List.replicate 32 digit)
  oldKey := none
  phase := .finalizing
  ivIndex := some ⟨5, true⟩
  index := index

/-- Two keys, of which the first is current. -/
def sampleSource : ProvisioningSource where
  netKeys := [sampleNetkey 'A' 0, sampleNetkey 'B' 1]
  setNetkeyModel := none
  ivIndex := format08X 5

/-- A device behind the random. -/
def awaitingDevice : ProvNode := { freshDevice with provisonRcvState := .devRandom }

def unusedNet : NodeNet Key := ⟨.empty keyAsMat (Vector.replicate 16 0), 0, [0, 0, 0, 0], none⟩

theorem awaits_sample : Awaits keyAsMat awaitingDevice unusedNet := ⟨rfl, _, rfl⟩

theorem undone_sample : Undone plainCrypto plainSsl [] [] awaitingDevice := by
  intro data hdata
  change ((data ++ List.replicate 8 0).take 25).take 25 = data
  rw [List.take_left' hdata, List.take_of_length_le (Nat.le_of_eq hdata)]

theorem netAgrees_sample :
    NetAgrees keyAsMat plainCrypto plainSsl [] [] awaitingDevice unusedNet sampleSource
      (sampleNetkey 'A' 0) 2 :=
  (netAgrees_iff awaits_sample undone_sample (by decide) (by decide) (by decide)).mpr (by decide)

/-- The second key gets the octets of the first. -/
theorem netAgrees_refuted : ¬ ∀ (source : ProvisioningSource) (key : SigIndexedNetkeyModel)
    (address : BitVec 16), key ∈ source.netKeys → key.keyData.length = 16 →
      isUnicastAdr address.toNat = true →
        NetAgrees keyAsMat plainCrypto plainSsl [] [] awaitingDevice unusedNet source key
          address := by
  intro h
  obtain ⟨data, hdata, hplain, -⟩ := h sampleSource (sampleNetkey 'B' 1) 2 (by decide) (by decide)
    (by decide)
  have hfound : provisionWithUnicastAddress sampleSource 2 (sampleNetkey 'B' 1).keyData 1 =
      some (.prepareWithNetwork sampleSource (sampleNetkey 'B' 1) 2) := by decide
  rw [show (sampleNetkey 'B' 1).index = 1 from rfl, hfound] at hdata
  cases hdata
  exact absurd hplain (by decide)

end PirMesh
