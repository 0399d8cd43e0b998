import Mathlib.Data.BitVec
import Mathlib.Logic.Function.Basic
import PirMesh.Library.Run
import PirMesh.Phone.LibTools

/-! # Phone — Addresses of new nodes and provisioners (`SigDataSource.m`, `SigModel.m`)

The address of a new node comes after the last address that was saved for the provisioner of the
phone, or after all elements when none was saved.  A new provisioner gets a range of its own, by a
count that is made from the highest bound of the others.

Where an address was saved the nodes are not looked at.  `Inv` keeps them apart from the saved
address: each ends at or below it, or begins above the one that comes next.  `InTurn` asks this of
what an event brings: of imported nodes, of a provisioner that takes over, and of an added node,
which stays below the nodes above it.  A new provisioner gets a range that is free when its count
carries it above all others and its bound is a unicast address. -/

namespace PirMesh.DataSource

open LibTools

/-! ### Data -/

/-- The bounds are numbers that are written with `%04X`. -/
structure SigRangeModel where
  lowAddress : ℕ
  highAddress : ℕ
  deriving DecidableEq, Repr

namespace SigRangeModel

variable (range : SigRangeModel)

def lowIntAddress : ℕ := (uint16From16String (format04X range.lowAddress)).toNat

def hightIntAddress : ℕ := (uint16From16String (format04X range.highAddress)).toNat

end SigRangeModel

/-- `allocatedUnicastRange` holds one range. -/
structure SigProvisionerModel where
  uuid : String
  allocatedUnicastRange : SigRangeModel
  deriving DecidableEq, Repr

structure SigNode where
  address : BitVec 16
  elementCount : ℕ
  deriving DecidableEq, Repr

/-- The last address of the elements: `node.address + node.elements.count - 1`. -/
def SigNode.curMax (node : SigNode) : ℕ := node.address.toNat + node.elementCount - 1

/-- `savedAddresses` is the dictionary in the user defaults, when there is one. -/
structure SigDataSource where
  nodes : List SigNode
  provisioners : List SigProvisionerModel
  currentProvisionerUUID : String
  savedAddresses : Option (String → Option ℤ)

/-- `initWithExistProvisionerCount:andProvisionerUUID:`, with the configured
`defaultAllocatedUnicastRangeHighAddress`. -/
def initWithExistProvisionerCount (high : BitVec 16) (count : ℕ) (uuid : String) :
    SigProvisionerModel :=
  ⟨uuid, ⟨1 + (if count = 0 then 0 else count * (high.toNat + 1) - 1),
    high.toNat + if count = 0 then 0 else count * (high.toNat + 1)⟩⟩

namespace SigDataSource

variable (high : BitVec 16) (s : SigDataSource)

/-! ### The address of a new node -/

def curProvisionerModel : Option SigProvisionerModel :=
  s.provisioners.find? fun provisioner => decide (provisioner.uuid = s.currentProvisionerUUID)

def saveLocationProvisionAddress (address : ℤ) : SigDataSource :=
  let dict := s.savedAddresses.getD fun _ => none
  { s with savedAddresses := some (Function.update dict s.currentProvisionerUUID (some address)) }

/-- The loop of `provisionAddress`; the maximum is kept in 16 bits. -/
def maxAddr (low : ℕ) (nodes : List SigNode) : ℕ :=
  nodes.foldl (fun maxAddr node =>
    if maxAddr < node.curMax then node.curMax % 0x10000 else maxAddr) (low % 0x10000)

/-- The address, and the data source behind the call. -/
def provisionAddress : BitVec 16 × SigDataSource :=
  match s.curProvisionerModel with
  | none => (1, s)
  | some provisioner =>
    let maxAddr := maxAddr provisioner.allocatedUnicastRange.lowIntAddress s.nodes
    match s.savedAddresses with
    | none => (BitVec.ofNat 16 maxAddr + 1, s.saveLocationProvisionAddress maxAddr)
    | some dict =>
      match dict s.currentProvisionerUUID with
      | some address => (BitVec.ofInt 16 address + 1, s)
      | none => (BitVec.ofNat 16 maxAddr + 1, s)

/-! ### Provisioners -/

def getProvisionerCount : ℕ :=
  let max := s.provisioners.foldl (fun max provisioner =>
    if max < provisioner.allocatedUnicastRange.hightIntAddress then
      provisioner.allocatedUnicastRange.hightIntAddress
    else max) 0
  (max >>> 8) + 1

/-- The node of the provisioner is put at the low bound of its range. -/
def addLocationNodeWithProvisioner (provisioner : SigProvisionerModel) : SigDataSource :=
  { s with
    nodes := s.nodes ++
      [⟨BitVec.ofNat 16 provisioner.allocatedUnicastRange.lowIntAddress, 1⟩]
    currentProvisionerUUID := provisioner.uuid }

def checkExistLocationProvisioner : SigDataSource :=
  match s.curProvisionerModel with
  | some _ => s
  | none =>
    if s.provisioners.length ≤ 0x7f then
      let provisioner := initWithExistProvisionerCount high s.getProvisionerCount
        s.currentProvisionerUUID
      { s with provisioners := s.provisioners ++ [provisioner] }.addLocationNodeWithProvisioner
        provisioner
    else s

/-- `initMeshData` -/
def initMeshData (uuid : String) : SigDataSource :=
  let provisioner := initWithExistProvisionerCount high 0 uuid
  SigDataSource.addLocationNodeWithProvisioner ⟨[], [provisioner], uuid, none⟩ provisioner

/-! ### Events -/

/-- A node is added at the address that `provisionAddress` returns. -/
def addNode (elementCount : ℕ) : SigDataSource :=
  let address := s.provisionAddress.1
  let s := s.provisionAddress.2
  { s with nodes := s.nodes ++ [SigNode.mk address elementCount] }.saveLocationProvisionAddress
    (address.toNat + elementCount - 1)

/-- `deleteNodeFromMeshNetworkWithDeviceAddress:` -/
def deleteNode (deviceAddress : BitVec 16) : SigDataSource :=
  { s with nodes := s.nodes.eraseP fun node => decide (node.address = deviceAddress) }

/-- `setDictionaryToDataSource:`, before the check of the provisioner. -/
def setDictionary (nodes : List SigNode) (provisioners : List SigProvisionerModel) :
    SigDataSource :=
  { s with nodes, provisioners }

end SigDataSource

inductive Event where
  /-- The address is asked for, and no node is added. -/
  | askAddress
  | addNode (elementCount : ℕ)
  | deleteNode (deviceAddress : BitVec 16)
  | importData (nodes : List SigNode) (provisioners : List SigProvisionerModel)
  /-- `saveCurrentProvisionerUUID:` and the check, which adds a provisioner that is new. -/
  | useProvisioner (uuid : String)
  deriving DecidableEq, Repr

def SigDataSource.next (high : BitVec 16) (s : SigDataSource) : Event → SigDataSource
  | .askAddress => s.provisionAddress.2
  | .addNode elementCount => s.addNode elementCount
  | .deleteNode deviceAddress => s.deleteNode deviceAddress
  | .importData nodes provisioners =>
    (s.setDictionary nodes provisioners).checkExistLocationProvisioner high
  | .useProvisioner uuid =>
    { s with currentProvisionerUUID := uuid }.checkExistLocationProvisioner high

/-! ### New addresses are free -/

open Run

/-! ### Free addresses -/

def SigNode.Occupies (node : SigNode) (address : BitVec 16) : Prop :=
  node.address.toNat ≤ address.toNat ∧ address.toNat < node.address.toNat + node.elementCount

/-- The address of a new node is a unicast address, and free. -/
structure AddressOk (s : SigDataSource) : Prop where
  unicast : 1 ≤ s.provisionAddress.1.toNat ∧ s.provisionAddress.1.toNat ≤ 0x7FFF
  free : ∀ node ∈ s.nodes, ¬ node.Occupies s.provisionAddress.1

structure RangesOk (provisioners : List SigProvisionerModel) : Prop where
  within : ∀ p ∈ provisioners, 1 ≤ p.allocatedUnicastRange.lowAddress ∧
    p.allocatedUnicastRange.lowAddress ≤ p.allocatedUnicastRange.highAddress ∧
    p.allocatedUnicastRange.highAddress ≤ 0x7FFF
  disjoint : provisioners.Pairwise fun p q =>
    p.allocatedUnicastRange.highAddress < q.allocatedUnicastRange.lowAddress ∨
      q.allocatedUnicastRange.highAddress < p.allocatedUnicastRange.lowAddress

/-! ### Events in turn -/

/-- The address saved for the provisioner of the phone. -/
def SigDataSource.savedFor (s : SigDataSource) : Option ℤ :=
  s.savedAddresses.bind fun dict => dict s.currentProvisionerUUID

/-- The nodes leave the address free that comes after the saved one, or after all of them. -/
def Clear (saved : Option ℤ) (low : ℕ) (nodes : List SigNode) : Prop :=
  match saved with
  | some v => ∀ node ∈ nodes, (node.curMax : ℤ) ≤ v ∨ v + 1 < node.address.toNat
  | none => low ≤ 0x7FFE ∧ ∀ node ∈ nodes, node.curMax ≤ 0x7FFE

/-- There is room for the elements of a node and an address behind it, below the nodes above. -/
def Room (saved : Option ℤ) (low : ℕ) (nodes : List SigNode) (elementCount : ℕ) : Prop :=
  match saved with
  | some v => v + elementCount ≤ 0x7FFE ∧
      ∀ node ∈ nodes, (node.curMax : ℤ) ≤ v ∨ v + elementCount + 1 < node.address.toNat
  | none => low + elementCount ≤ 0x7FFE ∧ ∀ node ∈ nodes, node.curMax + elementCount ≤ 0x7FFE

/-- The low bound of the provisioner of the phone. -/
def SigDataSource.low (s : SigDataSource) : ℕ :=
  (s.curProvisionerModel.map (·.allocatedUnicastRange.lowIntAddress)).getD 0

/-- The low bound of a new provisioner. -/
def SigDataSource.newLow (high : BitVec 16) (s : SigDataSource) : ℕ :=
  s.getProvisionerCount * (high.toNat + 1)

/-- A new provisioner is admitted, and its range is above all others and ends at a unicast
address. -/
structure Admitted (high : BitVec 16) (s : SigDataSource) : Prop where
  count : s.provisioners.length ≤ 0x7f
  above : ∀ p ∈ s.provisioners, p.allocatedUnicastRange.highAddress < s.newLow high
  unicast : high.toNat + s.newLow high ≤ 0x7FFF

/-- What the check of the provisioner finds, or adds, is clear of the saved address. -/
def Settles (high : BitVec 16) (s : SigDataSource) : Prop :=
  if s.curProvisionerModel.isSome then Clear s.savedFor s.low s.nodes
  else Admitted high s ∧
    Clear s.savedFor (s.newLow high) (s.nodes ++ [⟨BitVec.ofNat 16 (s.newLow high), 1⟩])

def InTurn (high : BitVec 16) (s : SigDataSource) : Event → Prop
  | .askAddress | .deleteNode _ => True
  | .addNode elementCount => Room s.savedFor s.low s.nodes elementCount
  | .importData nodes provisioners =>
    RangesOk provisioners ∧ Settles high (s.setDictionary nodes provisioners)
  | .useProvisioner uuid => Settles high { s with currentProvisionerUUID := uuid }

instance (saved : Option ℤ) (low : ℕ) (nodes : List SigNode) : Decidable (Clear saved low nodes) :=
  match saved with
  | some _ => inferInstanceAs (Decidable (∀ node ∈ nodes, _ ∨ _))
  | none => inferInstanceAs (Decidable (_ ∧ ∀ node ∈ nodes, _))

instance (saved : Option ℤ) (low : ℕ) (nodes : List SigNode) (elementCount : ℕ) :
    Decidable (Room saved low nodes elementCount) :=
  match saved with
  | some _ => inferInstanceAs (Decidable (_ ∧ ∀ node ∈ nodes, _ ∨ _))
  | none => inferInstanceAs (Decidable (_ ∧ ∀ node ∈ nodes, _))

instance (provisioners : List SigProvisionerModel) : Decidable (RangesOk provisioners) :=
  decidable_of_iff
    ((∀ p ∈ provisioners, 1 ≤ p.allocatedUnicastRange.lowAddress ∧
      p.allocatedUnicastRange.lowAddress ≤ p.allocatedUnicastRange.highAddress ∧
      p.allocatedUnicastRange.highAddress ≤ 0x7FFF) ∧
    provisioners.Pairwise fun p q =>
      p.allocatedUnicastRange.highAddress < q.allocatedUnicastRange.lowAddress ∨
        q.allocatedUnicastRange.highAddress < p.allocatedUnicastRange.lowAddress)
    ⟨fun h => ⟨h.1, h.2⟩, fun h => ⟨h.within, h.disjoint⟩⟩

instance (high : BitVec 16) (s : SigDataSource) : Decidable (Admitted high s) :=
  decidable_of_iff
    (s.provisioners.length ≤ 0x7f ∧
      (∀ p ∈ s.provisioners, p.allocatedUnicastRange.highAddress < s.newLow high) ∧
      high.toNat + s.newLow high ≤ 0x7FFF)
    ⟨fun h => ⟨h.1, h.2.1, h.2.2⟩, fun h => ⟨h.count, h.above, h.unicast⟩⟩

instance (high : BitVec 16) (s : SigDataSource) : Decidable (Settles high s) :=
  inferInstanceAs (Decidable (if _ = true then _ else _ ∧ _))

instance (high : BitVec 16) (s : SigDataSource) (e : Event) : Decidable (InTurn high s e) :=
  match e with
  | .askAddress | .deleteNode _ => inferInstanceAs (Decidable True)
  | .addNode elementCount => inferInstanceAs (Decidable (Room _ _ _ elementCount))
  | .importData _ _ => inferInstanceAs (Decidable (_ ∧ Settles high _))
  | .useProvisioner _ => inferInstanceAs (Decidable (Settles high _))

/-! ### The invariant -/

structure Inv (s : SigDataSource) : Prop where
  current : s.curProvisionerModel.isSome
  clear : Clear s.savedFor s.low s.nodes
  saved : ∀ dict ∈ s.savedAddresses, ∀ uuid, ∀ v ∈ dict uuid, 0 ≤ v ∧ v ≤ 0x7FFE
  ranges : RangesOk s.provisioners

theorem Clear.mono {saved : Option ℤ} {low : ℕ} {nodes nodes' : List SigNode}
    (h : Clear saved low nodes) (hsub : ∀ node ∈ nodes', node ∈ nodes) :
    Clear saved low nodes' := by
  cases saved with
  | some v => exact fun node hmem => h node (hsub node hmem)
  | none => exact ⟨h.1, fun node hmem => h.2 node (hsub node hmem)⟩

/-- The loop finds a bound of all. -/
theorem maxAddr_spec {bound : ℕ} (hbound : bound < 0x10000) {nodes : List SigNode}
    (hnodes : ∀ node ∈ nodes, node.curMax ≤ bound) {low : ℕ} (hlow : low ≤ bound) :
    SigDataSource.maxAddr low nodes ≤ bound ∧ low ≤ SigDataSource.maxAddr low nodes ∧
      ∀ node ∈ nodes, node.curMax ≤ SigDataSource.maxAddr low nodes := by
  unfold SigDataSource.maxAddr
  rw [Nat.mod_eq_of_lt (hlow.trans_lt hbound)]
  induction nodes generalizing low with
  | nil => exact ⟨hlow, le_rfl, nofun⟩
  | cons node rest ih =>
    rw [List.foldl_cons]
    have hnode := hnodes node List.mem_cons_self
    have hrest : ∀ other ∈ rest, other.curMax ≤ bound := fun other hmem =>
      hnodes other (List.mem_cons_of_mem _ hmem)
    rw [Nat.mod_eq_of_lt (hnode.trans_lt hbound)]
    have hstep : ∀ next, next ≤ bound → low ≤ next → node.curMax ≤ next →
        rest.foldl (fun maxAddr node =>
          if maxAddr < node.curMax then node.curMax % 0x10000 else maxAddr) next ≤ bound ∧
        low ≤ rest.foldl (fun maxAddr node =>
          if maxAddr < node.curMax then node.curMax % 0x10000 else maxAddr) next ∧
        ∀ other ∈ node :: rest, other.curMax ≤ rest.foldl (fun maxAddr node =>
          if maxAddr < node.curMax then node.curMax % 0x10000 else maxAddr) next := by
      intro next hnext hlow' hcur
      obtain ⟨hle, hge, hall⟩ := ih hrest hnext
      refine ⟨hle, hlow'.trans hge, fun other hmem => ?_⟩
      cases List.mem_cons.mp hmem with
      | inl heq => exact heq ▸ hcur.trans hge
      | inr hin => exact hall other hin
    split
    case isTrue hlt => exact hstep node.curMax hnode hlt.le le_rfl
    case isFalse hnot => exact hstep low hlow le_rfl (Nat.not_lt.mp hnot)

/-- The address comes after `last`, which was saved, or is the last of all elements. -/
structure LastAddress (s : SigDataSource) (last : ℕ) : Prop where
  le : last ≤ 0x7FFE
  address : s.provisionAddress.1.toNat = last + 1
  saved : s.savedFor = some (last : ℤ) ∨
    s.savedFor = none ∧ s.low ≤ last ∧ ∀ node ∈ s.nodes, node.curMax ≤ last
  least : ∀ elementCount, Room s.savedFor s.low s.nodes elementCount → last + elementCount ≤ 0x7FFE
  asked : s.provisionAddress.2 = s ∨
    s.savedFor = none ∧ s.provisionAddress.2 = s.saveLocationProvisionAddress last

/-- All elements are counted when no address was saved. -/
theorem lastAddress_of_none {s : SigDataSource} {provisioner : SigProvisionerModel}
    (hcur : s.curProvisionerModel = some provisioner) (hsaved : s.savedFor = none)
    (hclear : Clear s.savedFor s.low s.nodes)
    (haddress : s.provisionAddress.1 = BitVec.ofNat 16
      (SigDataSource.maxAddr provisioner.allocatedUnicastRange.lowIntAddress s.nodes) + 1)
    (hasked : s.provisionAddress.2 = s ∨ s.provisionAddress.2 = s.saveLocationProvisionAddress
      (SigDataSource.maxAddr provisioner.allocatedUnicastRange.lowIntAddress s.nodes)) :
    ∃ last, LastAddress s last := by
  have hlow : s.low = provisioner.allocatedUnicastRange.lowIntAddress := by
    unfold SigDataSource.low
    rw [hcur]
    rfl
  rw [hsaved] at hclear
  obtain ⟨hlowLe, hnodes⟩ := hclear
  rw [hlow] at hlowLe
  obtain ⟨hle, hge, hall⟩ := maxAddr_spec (by decide : 0x7FFE < 0x10000) hnodes hlowLe
  refine ⟨_, hle, ?_, .inr ⟨hsaved, hlow ▸ hge, hall⟩, fun elementCount hroom => ?_,
    hasked.imp_right fun heq => ⟨hsaved, heq⟩⟩
  · rw [haddress, BitVec.toNat_add, BitVec.toNat_ofNat]
    change (_ % 2 ^ 16 + 1) % 2 ^ 16 = _
    omega
  · rw [hsaved] at hroom
    obtain ⟨hlowRoom, hnodesRoom⟩ := hroom
    have hbound := maxAddr_spec (by omega : 0x7FFE - elementCount < 0x10000)
      (fun node hmem => Nat.le_sub_of_add_le (hnodesRoom node hmem))
      (Nat.le_sub_of_add_le (hlow ▸ hlowRoom))
    omega

theorem Inv.last {s : SigDataSource} (h : Inv s) : ∃ last, LastAddress s last := by
  obtain ⟨provisioner, hcur⟩ := Option.isSome_iff_exists.mp h.current
  cases hdict : s.savedAddresses with
  | none =>
    have hsaved : s.savedFor = none := by
      unfold SigDataSource.savedFor
      rw [hdict]
      rfl
    have hask : s.provisionAddress = (BitVec.ofNat 16
        (SigDataSource.maxAddr provisioner.allocatedUnicastRange.lowIntAddress s.nodes) + 1,
          s.saveLocationProvisionAddress
            (SigDataSource.maxAddr provisioner.allocatedUnicastRange.lowIntAddress s.nodes)) := by
      rw [SigDataSource.provisionAddress, hcur, hdict]
    exact lastAddress_of_none hcur hsaved h.clear (congrArg Prod.fst hask)
      (.inr (congrArg Prod.snd hask))
  | some dict =>
    have hdictAt : s.savedFor = dict s.currentProvisionerUUID := by
      unfold SigDataSource.savedFor
      rw [hdict]
      rfl
    cases hv : dict s.currentProvisionerUUID with
    | none =>
      have hask : s.provisionAddress = (BitVec.ofNat 16
          (SigDataSource.maxAddr provisioner.allocatedUnicastRange.lowIntAddress s.nodes) + 1,
            s) := by
        rw [SigDataSource.provisionAddress, hcur, hdict]
        dsimp only
        rw [hv]
      exact lastAddress_of_none hcur (hdictAt.trans hv) h.clear (congrArg Prod.fst hask)
        (.inl (congrArg Prod.snd hask))
    | some v =>
      have hask : s.provisionAddress = (BitVec.ofInt 16 v + 1, s) := by
        rw [SigDataSource.provisionAddress, hcur, hdict]
        dsimp only
        rw [hv]
      obtain ⟨hpos, hle⟩ := h.saved dict hdict _ v hv
      obtain ⟨last, rfl⟩ := Int.eq_ofNat_of_zero_le hpos
      refine ⟨last, by omega, ?_, .inl (hdictAt.trans hv), fun elementCount hroom => ?_,
        .inl (congrArg Prod.snd hask)⟩
      · rw [hask, BitVec.toNat_add, BitVec.ofInt_natCast, BitVec.toNat_ofNat]
        change (_ % 2 ^ 16 + 1) % 2 ^ 16 = _
        omega
      · rw [hdictAt, hv] at hroom
        have hle := hroom.1
        omega

theorem Inv.addressOk {s : SigDataSource} (h : Inv s) : AddressOk s := by
  obtain ⟨last, hle, haddress, hsaved, -, -⟩ := h.last
  refine ⟨by omega, fun node hmem hoccupies => ?_⟩
  obtain ⟨hlow, hhigh⟩ := hoccupies
  rw [haddress] at hlow hhigh
  have hcur : node.curMax = node.address.toNat + node.elementCount - 1 := rfl
  rcases hsaved with hsome | ⟨-, -, hall⟩
  · have hclear := h.clear
    rw [hsome] at hclear
    have hapart := hclear node hmem
    omega
  · have hnode := hall node hmem
    omega

/-! ### Every event -/

namespace Inv

variable {s : SigDataSource}

theorem savedFor_save (s : SigDataSource) (v : ℤ) :
    (s.saveLocationProvisionAddress v).savedFor = some v :=
  Function.update_self ..

/-- Another dictionary, which holds a unicast address for the provisioner. -/
theorem save (h : Inv s) {nodes : List SigNode} {last : ℕ} (hle : last ≤ 0x7FFE)
    (hnodes : ∀ node ∈ nodes, node.curMax ≤ last ∨ last + 1 < node.address.toNat) :
    Inv ({ s with nodes }.saveLocationProvisionAddress last) where
  current := h.current
  clear := by
    rw [savedFor_save]
    intro node hmem
    exact (hnodes node hmem).imp Int.ofNat_le.mpr Int.ofNat_lt.mpr
  saved := by
    intro dict hdict uuid v hv
    cases hdict
    by_cases huuid : uuid = s.currentProvisionerUUID
    · subst huuid
      have hself : Function.update (s.savedAddresses.getD fun _ => none) s.currentProvisionerUUID
          (some (last : ℤ)) s.currentProvisionerUUID = some (last : ℤ) := Function.update_self ..
      have hval : (last : ℤ) = v := Option.some.inj (hself.symm.trans hv)
      omega
    · have hold : (s.savedAddresses.getD fun _ => none) uuid = some v :=
        (Function.update_of_ne huuid ..).symm.trans hv
      cases hsaved : s.savedAddresses with
      | none =>
        rw [hsaved] at hold
        cases hold
      | some dict =>
        rw [hsaved] at hold
        exact h.saved dict hsaved uuid v hold
  ranges := h.ranges

theorem askAddress (h : Inv s) : Inv s.provisionAddress.2 := by
  obtain ⟨last, hle, -, hsaved, -, hasked⟩ := h.last
  rcases hasked with heq | ⟨hnone, heq⟩
  · rw [heq]
    exact h
  · rw [heq]
    obtain ⟨-, -, hall⟩ := hsaved.resolve_left fun hsome => by
      cases hnone.symm.trans hsome
    exact h.save hle fun node hmem => .inl (hall node hmem)

theorem addNode (h : Inv s) {elementCount : ℕ}
    (hroom : Room s.savedFor s.low s.nodes elementCount) : Inv (s.addNode elementCount) := by
  obtain ⟨last, hle, haddress, hsaved, hleast, hasked⟩ := h.last
  have hnodes : s.provisionAddress.2.nodes = s.nodes := by
    rcases hasked with heq | ⟨-, heq⟩
    · rw [heq]
    · rw [heq]
      rfl
  have hlast : (s.provisionAddress.1.toNat : ℤ) + elementCount - 1 = (last + elementCount : ℕ) := by
    omega
  unfold SigDataSource.addNode
  dsimp only
  rw [hlast]
  refine h.askAddress.save (hleast elementCount hroom) fun node hmem => ?_
  rw [hnodes] at hmem
  cases List.mem_append.mp hmem with
  | inr hnew =>
    cases List.mem_singleton.mp hnew
    refine .inl ?_
    unfold SigNode.curMax
    dsimp only
    omega
  | inl hold =>
    rcases hsaved with hsome | ⟨-, -, hall⟩
    · rw [hsome] at hroom
      have hapart := hroom.2 node hold
      omega
    · have hnode := hall node hold
      omega

theorem deleteNode (h : Inv s) (deviceAddress : BitVec 16) : Inv (s.deleteNode deviceAddress) where
  current := h.current
  clear := h.clear.mono fun _ hmem => List.mem_of_mem_eraseP hmem
  saved := h.saved
  ranges := h.ranges

end Inv

/-- The text of a bound in range reads back as the bound. -/
theorem lowIntAddress_eq {range : SigRangeModel} (h : range.lowAddress ≤ 0x7FFF) :
    range.lowIntAddress = range.lowAddress := by
  unfold SigRangeModel.lowIntAddress
  rw [uint16From16String_format (by omega), BitVec.toNat_ofNat]
  exact Nat.mod_eq_of_lt (by omega)

/-- A range that is above all others. -/
theorem RangesOk.concat {provisioners : List SigProvisionerModel}
    {provisioner : SigProvisionerModel}
    (h : RangesOk provisioners)
    (hwithin : 1 ≤ provisioner.allocatedUnicastRange.lowAddress ∧
      provisioner.allocatedUnicastRange.lowAddress ≤
        provisioner.allocatedUnicastRange.highAddress ∧
      provisioner.allocatedUnicastRange.highAddress ≤ 0x7FFF)
    (habove : ∀ p ∈ provisioners, p.allocatedUnicastRange.highAddress <
      provisioner.allocatedUnicastRange.lowAddress) : RangesOk (provisioners ++ [provisioner]) where
  within := by
    intro p hmem
    cases List.mem_append.mp hmem with
    | inl hold => exact h.within p hold
    | inr hnew => exact List.mem_singleton.mp hnew ▸ hwithin
  disjoint := by
    refine List.pairwise_append.mpr ⟨h.disjoint, List.pairwise_singleton _ _, ?_⟩
    intro p hmem q hq
    exact .inl (List.mem_singleton.mp hq ▸ habove p hmem)

/-- The bounds that the count gives. -/
theorem newRange (high : BitVec 16) (s : SigDataSource) :
    (initWithExistProvisionerCount high s.getProvisionerCount
      s.currentProvisionerUUID).allocatedUnicastRange.lowAddress = s.newLow high ∧
    (initWithExistProvisionerCount high s.getProvisionerCount
      s.currentProvisionerUUID).allocatedUnicastRange.highAddress = high.toNat + s.newLow high ∧
    1 ≤ s.newLow high := by
  have hcount : s.getProvisionerCount ≠ 0 := Nat.succ_ne_zero _
  have hpos : 1 ≤ s.newLow high :=
    Nat.mul_pos (Nat.pos_of_ne_zero hcount) (Nat.succ_pos _)
  unfold initWithExistProvisionerCount
  dsimp only
  rw [if_neg hcount, if_neg hcount]
  refine ⟨?_, rfl, hpos⟩
  exact Nat.add_sub_cancel' hpos

/-- The check of the provisioner, on data that it settles on. -/
theorem Inv.check {high : BitVec 16} {s : SigDataSource} (hranges : RangesOk s.provisioners)
    (hsaved : ∀ dict ∈ s.savedAddresses, ∀ uuid, ∀ v ∈ dict uuid, 0 ≤ v ∧ v ≤ 0x7FFE)
    (hsettles : Settles high s) : Inv (s.checkExistLocationProvisioner high) := by
  unfold Settles at hsettles
  unfold SigDataSource.checkExistLocationProvisioner
  split
  case h_1 provisioner hcur =>
    rw [hcur, if_pos Option.isSome_some] at hsettles
    exact ⟨hcur ▸ rfl, hsettles, hsaved, hranges⟩
  case h_2 hnone =>
    rw [hnone, if_neg (by decide)] at hsettles
    obtain ⟨⟨hcount, habove, hunicast⟩, hclear⟩ := hsettles
    rw [if_pos hcount]
    have hrange := newRange high s
    set provisioner := initWithExistProvisionerCount high s.getProvisionerCount
      s.currentProvisionerUUID
    have hlow : provisioner.allocatedUnicastRange.lowIntAddress = s.newLow high := by
      rw [lowIntAddress_eq (by omega), hrange.1]
    have hcur : SigDataSource.curProvisionerModel
        ({ s with provisioners := s.provisioners ++ [provisioner] }.addLocationNodeWithProvisioner
          provisioner) = some provisioner := by
      have hold : s.provisioners.find? (fun p => decide (p.uuid = provisioner.uuid)) = none := hnone
      change (s.provisioners ++ [provisioner]).find?
        (fun p => decide (p.uuid = provisioner.uuid)) = some provisioner
      simp [List.find?_append, hold]
    refine ⟨hcur ▸ rfl, ?_, hsaved, hranges.concat ⟨by omega, by omega, by omega⟩ fun p hmem => ?_⟩
    · unfold SigDataSource.low
      rw [hcur]
      change Clear s.savedFor provisioner.allocatedUnicastRange.lowIntAddress
        (s.nodes ++ [⟨BitVec.ofNat 16 provisioner.allocatedUnicastRange.lowIntAddress, 1⟩])
      rw [hlow]
      exact hclear
    · rw [hrange.1]
      exact habove p hmem

/-! ### A run -/

theorem Inv.next {high : BitVec 16} {s : SigDataSource} (h : Inv s) {e : Event}
    (hturn : InTurn high s e) : Inv (s.next high e) := by
  cases e with
  | askAddress => exact h.askAddress
  | addNode elementCount => exact h.addNode hturn
  | deleteNode deviceAddress => exact h.deleteNode deviceAddress
  | importData nodes provisioners => exact Inv.check hturn.1 h.saved hturn.2
  | useProvisioner uuid => exact Inv.check h.ranges h.saved hturn

theorem Inv.initMeshData {high : BitVec 16} (hhigh : 1 ≤ high.toNat ∧ high.toNat ≤ 0x7FFF)
    (uuid : String) : Inv (SigDataSource.initMeshData high uuid) := by
  have hcur : (SigDataSource.initMeshData high uuid).curProvisionerModel =
      some (initWithExistProvisionerCount high 0 uuid) := by
    simp [SigDataSource.initMeshData, SigDataSource.curProvisionerModel,
      SigDataSource.addLocationNodeWithProvisioner, initWithExistProvisionerCount]
  have hone : (initWithExistProvisionerCount high 0 uuid).allocatedUnicastRange.lowIntAddress = 1 :=
    lowIntAddress_eq (by decide : 1 ≤ 0x7FFF)
  have hlow : (SigDataSource.initMeshData high uuid).low = 1 := by
    unfold SigDataSource.low
    rw [hcur]
    exact hone
  refine ⟨hcur ▸ rfl, ⟨hlow ▸ by decide, fun node hmem => ?_⟩, nofun,
    ⟨fun p hmem => ?_, List.pairwise_singleton _ _⟩⟩
  · cases List.mem_singleton.mp hmem
    unfold SigNode.curMax
    dsimp only
    rw [hone]
    decide
  · cases List.mem_singleton.mp hmem
    exact ⟨le_rfl, hhigh⟩

/-- **New addresses.**  In a run whose events are all in turn the address of the next node is always
a unicast address that is free, and the ranges of the provisioners are disjoint. -/
theorem newAddress_ok (high : BitVec 16) (hhigh : 1 ≤ high.toNat ∧ high.toNat ≤ 0x7FFF)
    (uuid : String) (events : List Event)
    (hrun : GoodRun (SigDataSource.next high) (InTurn high) (SigDataSource.initMeshData high uuid)
      events) :
    AddressOk (events.foldl (SigDataSource.next high) (SigDataSource.initMeshData high uuid)) ∧
      RangesOk (events.foldl (SigDataSource.next high)
        (SigDataSource.initMeshData high uuid)).provisioners := by
  have hinv := hrun.inv (Inv.initMeshData hhigh uuid) fun _ _ h hturn => h.next hturn
  exact ⟨hinv.addressOk, hinv.ranges⟩

/-- Three provisioners, with the default width; the first comes back when the others have nodes. -/
def threeProvisioners : List Event :=
  [.askAddress, .addNode 2, .useProvisioner "B", .addNode 3, .useProvisioner "C", .addNode 1,
    .deleteNode 2, .useProvisioner "A", .addNode 1]

theorem newAddress_ok_sample :
    AddressOk (threeProvisioners.foldl (SigDataSource.next 0x400)
        (SigDataSource.initMeshData 0x400 "A")) ∧
      RangesOk (threeProvisioners.foldl (SigDataSource.next 0x400)
        (SigDataSource.initMeshData 0x400 "A")).provisioners :=
  newAddress_ok 0x400 (by decide) "A" threeProvisioners (by decide +kernel)

/-- With a saved address 3 a node at 4 is imported. -/
def importedNode : List Event :=
  [.addNode 2, .importData [⟨1, 1⟩, ⟨4, 1⟩] [⟨"A", ⟨1, 0x400⟩⟩]]

/-- The address of the imported node is the next one, and the fourth provisioner has a range beyond
the unicast addresses. -/
theorem newAddress_ok_refuted :
    ¬ AddressOk (importedNode.foldl (SigDataSource.next 0x400)
        (SigDataSource.initMeshData 0x400 "A")) ∧
      ¬ RangesOk ([Event.useProvisioner "B", .useProvisioner "C", .useProvisioner "D"].foldl
        (SigDataSource.next 0x400) (SigDataSource.initMeshData 0x400 "A")).provisioners := by
  constructor
  · intro h
    have haddress : (importedNode.foldl (SigDataSource.next 0x400)
        (SigDataSource.initMeshData 0x400 "A")).provisionAddress.1 = 4 := by
      decide +kernel
    have hnode : (⟨4, 1⟩ : SigNode) ∈ (importedNode.foldl (SigDataSource.next 0x400)
        (SigDataSource.initMeshData 0x400 "A")).nodes := by
      decide +kernel
    refine h.free ⟨4, 1⟩ hnode ?_
    unfold SigNode.Occupies
    rw [haddress]
    decide
  · decide +kernel

end PirMesh.DataSource
