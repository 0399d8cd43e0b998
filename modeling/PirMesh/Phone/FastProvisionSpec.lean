import Mathlib.Data.List.Pairwise
import PirMesh.Library.Counters
import PirMesh.Library.Run
import PirMesh.Phone.FastProvision

/-! # Phone — The addresses of a fast-provision session

An address is cut off from the free range when the status of its device comes in.  Two invariants
carry a run: what was sent and cut off (`SentInv`), and where the devices that adopted an address
are recorded (`AdoptInv`).  `InTurn` says that no round ends while its device has the address and
the manager does not know, that a device without an answer is tried again first, and that a status
that is taken is not left over from an earlier round. -/

namespace PirMesh.FastProvision

open Cuts LowerTransport Register Run

/-! ### The addresses of a session -/

/-- No address is sent to two devices. -/
def UniqueSent (s : State) : Prop :=
  ∀ m ∈ s.sent, ∀ m' ∈ s.sent, m.address = m'.address → m.macAddress = m'.macAddress

structure Allocated (cfg : Config) (s : State) (nodes : List FastNode) : Prop where
  distinct : (nodes.map FastNode.macAddress).Nodup
  disjoint : nodes.Pairwise fun a b =>
    Disjoint (span a.address cfg.elementCount) (span b.address cfg.elementCount)
  /-- A device that adopted an address is recorded with it. -/
  adopted : ∀ mac ∈ s.adopted, ⟨mac, (s.dev mac).eleAdrPrimary⟩ ∈ nodes

/-! ### Events in turn -/

/-- The device that gets an address-set message when the phase is over. -/
def State.nextModel (s : State) : Option SigFastProvisionModel :=
  match s.phase with
  | .getAddress _ | .getAddressRetry _ => s.scanMacAddressList.head?
  | .setAddress _ _ _ => s.scanMacAddressList.tail.head?
  | _ => none

/-- There is room for the elements of one more device. -/
def State.Fits (cfg : Config) (s : State) : Prop :=
  0 < cfg.elementCount ∧ cfg.elementCount * (s.setAddressList.length + 1) ≤ 0x10000

/-- The device has the address that the manager holds for free. -/
def State.HasNext (s : State) (mac : BitVec 48) : Prop :=
  mac ∈ s.adopted ∧ (s.dev mac).eleAdrPrimary = s.provisionAddress

/-- A message is sent when there is room, and a device that did not answer is the next to get one.
No round is over while its device has an address that is held for free; and a status is taken of a
device that has the address of the round, or none. -/
def InTurn (cfg : Config) (s : State) : Event → Prop
  | .proceed _ =>
    (∀ model ∈ s.nextModel, s.Fits cfg ∧ ∀ last ∈ s.sent.getLast?,
      last.address = s.provisionAddress → last.macAddress = model.macAddress) ∧
    ∀ round ∈ s.phase.round, ¬ s.HasNext round.2.macAddress
  | .handle _ _ => True
  | .deliver status => ∀ round ∈ s.phase.round, status ∈ s.flight → s.callsBack status = true →
      round.1.isAnsweredBy status = true →
        s.Fits cfg ∧ (round.1.macAddress ∈ s.adopted → s.HasNext round.1.macAddress)

instance (cfg : Config) (s : State) : Decidable (s.Fits cfg) :=
  inferInstanceAs (Decidable (_ ∧ _))

instance (s : State) (mac : BitVec 48) : Decidable (s.HasNext mac) :=
  inferInstanceAs (Decidable (_ ∧ _))

instance (cfg : Config) (s : State) (e : Event) : Decidable (InTurn cfg s e) :=
  match e with
  | .proceed _ =>
    inferInstanceAs (Decidable ((∀ model ∈ _, _ ∧ ∀ last ∈ _, _ → _) ∧ ∀ round ∈ _, _))
  | .handle _ _ => inferInstanceAs (Decidable True)
  | .deliver _ => inferInstanceAs (Decidable (∀ round ∈ _, _ → _ → _ → _ ∧ (_ → _)))

/-! ### What was sent -/

/-- The ranges cut off so far, the newest first. -/
def State.ranges (cfg : Config) (s : State) : List (BitVec 16 × ℕ) :=
  s.setAddressList.reverse.map fun model => (model.address, cfg.elementCount)

theorem total_ranges (cfg : Config) (s : State) :
    total (s.ranges cfg) = cfg.elementCount * s.setAddressList.length := by
  unfold total State.ranges
  rw [List.map_map, List.map_reverse, List.sum_reverse]
  induction s.setAddressList with
  | nil => rfl
  | cons model rest ih =>
    rw [List.map_cons, List.sum_cons, ih, List.length_cons, Nat.mul_succ, Nat.add_comm]
    rfl

structure SentInv (cfg : Config) (first : BitVec 16) (s : State) : Prop where
  cut : Cut first (s.ranges cfg) s.provisionAddress
  fits : total (s.ranges cfg) ≤ 2 ^ 16
  positive : s.setAddressList ≠ [] → 0 < cfg.elementCount
  known : ∀ m ∈ s.sent, m.address = s.provisionAddress ∨
    ∃ model ∈ s.setAddressList, m.address = model.address
  latest : ∀ m ∈ s.sent, m.address = s.provisionAddress → total (s.ranges cfg) < 2 ^ 16 →
    ∃ last ∈ s.sent.getLast?, last.address = s.provisionAddress ∧ last.macAddress = m.macAddress
  unique : UniqueSent s

namespace SentInv

variable {cfg : Config} {first : BitVec 16} {s s' : State}

theorem congr (h : SentInv cfg first s) (hnext : s'.provisionAddress = s.provisionAddress)
    (hlist : s'.setAddressList = s.setAddressList) (hsent : s'.sent = s.sent) :
    SentInv cfg first s' := by
  have hranges : s'.ranges cfg = s.ranges cfg := by
    unfold State.ranges
    rw [hlist]
  obtain ⟨hcut, hfits, hpos, hknown, hlatest, hunique⟩ := h
  constructor
  · rw [hranges, hnext]
    exact hcut
  · rw [hranges]
    exact hfits
  · rw [hlist]
    exact hpos
  · rw [hsent, hnext, hlist]
    exact hknown
  · rw [hsent, hnext, hranges]
    exact hlatest
  · unfold UniqueSent
    rw [hsent]
    exact hunique

/-- A message is sent; the one before was answered or went to the same device. -/
theorem setAddress (h : SentInv cfg first s) {model : SigFastProvisionModel} (hfits : s.Fits cfg)
    (hlast : ∀ last ∈ s.sent.getLast?, last.address = s.provisionAddress →
      last.macAddress = model.macAddress) : SentInv cfg first (s.setAddress model) := by
  have hroom : total (s.ranges cfg) < 2 ^ 16 := by
    obtain ⟨hpos, hle⟩ := hfits
    rw [total_ranges]
    rw [Nat.mul_succ] at hle
    omega
  have hsame : ∀ m ∈ s.sent, m.address = s.provisionAddress → m.macAddress = model.macAddress := by
    intro m hm haddress
    obtain ⟨last, hmem, hlastAddress, hmac⟩ := h.latest m hm haddress hroom
    exact hmac.symm.trans (hlast last hmem hlastAddress)
  have hmem : ∀ {m}, m ∈ (s.setAddress model).sent →
      m ∈ s.sent ∨ m = ⟨s.provisionAddress, model.macAddress, model.sourceUnicastAddress⟩ :=
    fun hm => (List.mem_append.mp hm).imp_right List.mem_singleton.mp
  have hmac : ∀ m ∈ (s.setAddress model).sent, m.address = s.provisionAddress →
      m.macAddress = model.macAddress := by
    intro m hm haddress
    rcases hmem hm with hold | rfl
    · exact hsame m hold haddress
    · rfl
  refine ⟨h.cut, h.fits, h.positive, fun m hm => ?_, fun m hm haddress _ => ?_, ?_⟩
  · rcases hmem hm with hold | rfl
    · exact h.known m hold
    · exact .inl rfl
  · exact ⟨⟨s.provisionAddress, model.macAddress, model.sourceUnicastAddress⟩,
      List.getLast?_concat .., rfl, (hmac m hm haddress).symm⟩
  · intro m hm m' hm' haddress
    rcases hmem hm with hold | rfl
    · rcases hmem hm' with hold' | rfl
      · exact h.unique m hold m' hold' haddress
      · exact hmac m hm haddress
    · exact (hmac m' hm' haddress.symm).symm

/-- A range is cut off; no message has the address behind it. -/
theorem addressSet (h : SentInv cfg first s) {model : SigFastProvisionModel}
    {status : AddressStatus} (hfits : model.isAnsweredBy status = true → s.Fits cfg) :
    SentInv cfg first (s.addressSet cfg model status) := by
  unfold State.addressSet
  split
  case isFalse => exact h
  case isTrue hanswer =>
    obtain ⟨hpos, hle⟩ := hfits hanswer
    set s' : State := { s with
      setAddressList := s.setAddressList ++ [{ model with address := s.provisionAddress }]
      provisionAddress := s.provisionAddress + BitVec.ofNat 16 cfg.elementCount } with hs'
    -- the next address is behind the range that is cut off
    have hranges : s'.ranges cfg = (s.provisionAddress, cfg.elementCount) :: s.ranges cfg := by
      unfold State.ranges
      rw [hs', List.reverse_concat]
      rfl
    have hcut : Cut first (s'.ranges cfg) s'.provisionAddress := by
      rw [hranges]
      exact .cons cfg.elementCount h.cut
    have htotal : total (s'.ranges cfg) ≤ 2 ^ 16 := by
      rw [total_ranges, hs', List.length_append]
      exact hle
    have hold : ∀ m ∈ s.sent, ∃ model ∈ s'.setAddressList, m.address = model.address := by
      intro m hm
      cases h.known m hm with
      | inl haddress =>
        exact ⟨_, List.mem_append_right _ List.mem_cons_self, haddress⟩
      | inr hmodel =>
        obtain ⟨old, hin, haddress⟩ := hmodel
        exact ⟨old, List.mem_append_left _ hin, haddress⟩
    refine ⟨hcut, htotal, fun _ => hpos, fun m hm => .inr (hold m hm), ?_, h.unique⟩
    intro m hm haddress hroom
    obtain ⟨old, hin, heq⟩ := hold m hm
    have hrange : (old.address, cfg.elementCount) ∈ s'.ranges cfg :=
      List.mem_map.mpr ⟨old, List.mem_reverse.mpr hin, rfl⟩
    have hspan : s'.provisionAddress ∈ span old.address cfg.elementCount := by
      rw [← haddress, heq]
      change (old.address - old.address).toNat < cfg.elementCount
      rw [BitVec.sub_self]
      exact hpos
    have hlt := hcut.lt htotal hrange hspan
    rw [hcut.next_eq, BitVec.add_comm, BitVec.add_sub_cancel, BitVec.toNat_ofNat,
      Nat.mod_eq_of_lt hroom] at hlt
    exact absurd hlt (Nat.lt_irrefl _)

end SentInv

/-! ### Where the devices are recorded -/

/-- The device of a round adopts the address of its message, until a status of it came. -/
structure Round (s : State) (model : SigFastProvisionModel) (message : AddressSet)
    (sources : List (BitVec 16)) : Prop where
  mac : message.macAddress = model.macAddress
  source : isUnicastAddress message.destination = true →
    sources = [] ∨ sources = [message.destination]
  address : isUnicastAddress message.destination = true →
    message.address = s.provisionAddress ∨
      sources ≠ [] ∧ ⟨model.macAddress, message.address⟩ ∈ s.nodes

/-- The device adopted the address of the round, and its status is on the way. -/
def Awaited (s : State) (mac : BitVec 48) : Prop :=
  (∃ round ∈ s.phase.round, round.2.macAddress = mac) ∧
    (s.dev mac).eleAdrPrimary = s.provisionAddress

structure AdoptInv (s : State) : Prop where
  round : ∀ model message sources, s.phase = .setAddress model message sources →
    Round s model message sources
  kept : ∀ mac ∈ s.adopted, (s.dev mac).getMacEn = false
  adopted : ∀ mac ∈ s.adopted,
    ⟨mac, (s.dev mac).eleAdrPrimary⟩ ∈ s.nodes ∨ Awaited s mac

section

variable (cfg : DevConfig) {mac : BitVec 48} {address : BitVec 16}

theorem setAddr_getMacEn {dev : FastProvDev} (hneed : dev.notNeedProv = false)
    (hmac : mac = cfg.tblMac) : (dev.cbVdMeshSetAddr cfg mac address).getMacEn = false := by
  rw [FastProvDev.cbVdMeshSetAddr, if_neg (hneed ▸ Bool.false_ne_true), if_pos hmac]

theorem setAddr_eleAdr {dev : FastProvDev} (hneed : dev.notNeedProv = false)
    (hmac : mac = cfg.tblMac) (hadopt : address ≠ 0 ∧ FastProvDev.isUnicast address) :
    (dev.cbVdMeshSetAddr cfg mac address).eleAdrPrimary = address := by
  rw [FastProvDev.cbVdMeshSetAddr, if_neg (hneed ▸ Bool.false_ne_true), if_pos hmac]
  dsimp only
  rw [if_pos hadopt, FastProvDev.meshSetEleAdrLl, if_pos hadopt.2]

theorem setAddr_eleAdr_of_not {dev : FastProvDev}
    (hnot : ¬ (address ≠ 0 ∧ FastProvDev.isUnicast address)) :
    (dev.cbVdMeshSetAddr cfg mac address).eleAdrPrimary = dev.eleAdrPrimary := by
  unfold FastProvDev.cbVdMeshSetAddr
  split
  · rfl
  · split
    · rfl
    · rfl

end

/-- Every device that adopted an address is recorded with it. -/
def Settled (s : State) : Prop := ∀ mac ∈ s.adopted, ⟨mac, (s.dev mac).eleAdrPrimary⟩ ∈ s.nodes

theorem nodup_nodes (s : State) : (s.nodes.map FastNode.macAddress).Nodup :=
  nodup_enterAll List.nodup_nil

namespace AdoptInv

variable {cfg : Config} {s : State}

/-- The nodes of a longer list. -/
theorem nodes_concat (s' : State) (model : SigFastProvisionModel)
    (hlist : s'.setAddressList = s.setAddressList ++ [model]) :
    s'.nodes = enter FastNode.macAddress ⟨model.macAddress, model.address⟩ s.nodes := by
  unfold State.nodes
  rw [hlist, List.map_append]
  exact enterAll_concat ..

theorem settled (h : AdoptInv s)
    (hround : ∀ round ∈ s.phase.round, ¬ s.HasNext round.2.macAddress) :
    Settled s := by
  intro mac hmac
  refine (h.adopted mac hmac).resolve_right fun hawaited => ?_
  obtain ⟨⟨round, hin, rfl⟩, hnext⟩ := hawaited
  exact hround round hin ⟨hmac, hnext⟩

/-- A phase begins in which nothing is awaited. -/
theorem of_settled {s' : State} (h : AdoptInv s) (hsettled : Settled s)
    (hdev : s'.dev = s.dev) (hadopted : s'.adopted = s.adopted)
    (hlist : s'.setAddressList = s.setAddressList)
    (hround : ∀ model message sources, s'.phase = .setAddress model message sources →
      message.macAddress = model.macAddress ∧ message.address = s'.provisionAddress ∧
        sources = []) : AdoptInv s' := by
  have hnodes : s'.nodes = s.nodes := by
    unfold State.nodes
    rw [hlist]
  refine ⟨fun model message sources hphase => ?_, ?_, ?_⟩
  · obtain ⟨hmac, haddress, hsources⟩ := hround model message sources hphase
    exact ⟨hmac, fun _ => .inl hsources, fun _ => .inl haddress⟩
  · rw [hadopted, hdev]
    exact h.kept
  · intro mac hmac
    rw [hadopted] at hmac
    rw [hnodes, hdev]
    exact .inl (hsettled mac hmac)

theorem setAddress (h : AdoptInv s) (hsettled : Settled s) (model : SigFastProvisionModel) :
    AdoptInv (s.setAddress model) := by
  refine h.of_settled hsettled rfl rfl rfl fun model' message sources hphase => ?_
  cases hphase
  exact ⟨rfl, rfl, rfl⟩

theorem of_no_round {s' : State} (h : AdoptInv s) (hsettled : Settled s) (hdev : s'.dev = s.dev)
    (hadopted : s'.adopted = s.adopted) (hlist : s'.setAddressList = s.setAddressList)
    (hround : s'.phase.round = none) : AdoptInv s' := by
  refine h.of_settled hsettled hdev hadopted hlist fun model message sources hphase => ?_
  rw [hphase] at hround
  cases hround

/-- A device that adopted an address answers no scan. -/
theorem handleGet (h : AdoptInv s) (mac : BitVec 48) (clock : BitVec 32)
    (eleAddr : Option (BitVec 16)) : AdoptInv (s.handleGet cfg mac clock eleAddr) := by
  have hdev : ∀ mac' ∈ s.adopted, (s.handleGet cfg mac clock eleAddr).dev mac' = s.dev mac' := by
    intro mac' hmac'
    by_cases hmac : mac' = mac
    case neg => exact Function.update_of_ne hmac ..
    case pos =>
      subst hmac
      have hoff : (s.dev mac').notNeedProv ∨ !(s.dev mac').getMacEn := by
        rw [h.kept mac' hmac']
        exact .inr rfl
      refine (Function.update_self ..).trans ?_
      rw [FastProvDev.cbVdMeshGetAddr.eq_def, if_pos hoff]
  refine ⟨fun model message sources hphase => ?_, fun mac' hmac' => ?_, fun mac' hmac' => ?_⟩
  · obtain ⟨hmac, hsource, haddress⟩ := h.round model message sources hphase
    exact ⟨hmac, hsource, haddress⟩
  · rw [hdev mac' hmac']
    exact h.kept mac' hmac'
  · unfold Awaited
    rw [hdev mac' hmac']
    exact h.adopted mac' hmac'

/-- The device of the round adopts the address, which is free or cut off for it. -/
theorem handleSet (h : AdoptInv s) {model : SigFastProvisionModel} {message : AddressSet}
    {sources : List (BitVec 16)} (hphase : s.phase = .setAddress model message sources)
    {mac : BitVec 48} (hown : s.isOwnAddress cfg mac message.destination = true) :
    AdoptInv (s.handleSet cfg mac message) := by
  have hunicast : isUnicastAddress message.destination = true := (of_decide_eq_true hown).1
  have hround := h.round model message sources hphase
  unfold State.handleSet
  split
  case isTrue => exact h
  case isFalse hgo =>
    obtain ⟨hneed, hmac⟩ := not_or.mp hgo
    have hmac : message.macAddress = mac := not_not.mp hmac
    have hself : ∀ dev, Function.update s.dev mac dev mac = dev := fun dev =>
      Function.update_self ..
    have hother : ∀ {mac'} (dev), mac' ≠ mac → Function.update s.dev mac dev mac' = s.dev mac' :=
      fun dev hne => Function.update_of_ne hne ..
    have hold : ∀ {mac'}, mac' ≠ mac → mac' ∈ (s.adopted ++
        if message.address ≠ 0 ∧ FastProvDev.isUnicast message.address then [mac] else []) →
          mac' ∈ s.adopted := by
      intro mac' hne hmem
      refine (List.mem_append.mp hmem).resolve_right fun hnew => ?_
      split at hnew
      · exact hne (List.mem_singleton.mp hnew)
      · cases hnew
    refine ⟨fun model' message' sources' hphase' => ?_, fun mac' hmac' => ?_, fun mac' hmac' => ?_⟩
    case refine_1 =>
      have hsame := h.round model' message' sources' hphase'
      exact ⟨hsame.mac, hsame.source, hsame.address⟩
    case refine_2 =>
      dsimp only
      by_cases hne : mac' = mac
      · rw [hne, hself, setAddr_getMacEn (cfg.device mac) (Bool.eq_false_iff.mpr hneed) hmac]
      · rw [hother _ hne]
        exact h.kept mac' (hold hne hmac')
    case refine_3 =>
      unfold Awaited
      dsimp only
      by_cases hne : mac' = mac
      case neg =>
        rw [hother _ hne]
        exact h.adopted mac' (hold hne hmac')
      case pos =>
        rw [hne, hself]
        by_cases hadopt : message.address ≠ 0 ∧ FastProvDev.isUnicast message.address
        case pos =>
          rw [setAddr_eleAdr (cfg.device mac) (Bool.eq_false_iff.mpr hneed) hmac hadopt]
          refine (hround.address hunicast).symm.imp (fun hnode => ?_) fun hnext => ?_
          · exact hmac ▸ hround.mac ▸ hnode.2
          · exact ⟨⟨(model, message), by rw [hphase]; rfl, hmac⟩, hnext⟩
        case neg =>
          rw [setAddr_eleAdr_of_not (cfg.device mac) hadopt]
          rw [if_neg hadopt, List.append_nil, hne] at hmac'
          exact h.adopted mac hmac'

/-- The status of the round is taken: its device is recorded with the address. -/
theorem addressSet (h : AdoptInv s) {model : SigFastProvisionModel} {message : AddressSet}
    {sources : List (BitVec 16)} (hphase : s.phase = .setAddress model message sources)
    {status : AddressStatus} (hback : s.callsBack status = true)
    (hturn : model.isAnsweredBy status = true → model.macAddress ∈ s.adopted →
      s.HasNext model.macAddress) :
    AdoptInv ({ s with phase := .setAddress model message (sources ++ [status.source]) }.addressSet
      cfg model status) := by
  have hround := h.round model message sources hphase
  have hback : status.isSet = true ∧ sources.contains status.source = false ∧
      (isUnicastAddress message.destination = false ∨ message.destination = status.source) := by
    unfold State.callsBack at hback
    rw [hphase] at hback
    exact of_decide_eq_true hback
  -- a device that is asked alone answers once
  have hfirst : isUnicastAddress message.destination = true →
      sources = [] ∧ message.destination = status.source := by
    intro hunicast
    have hsame : message.destination = status.source := hback.2.2.resolve_left fun hnot =>
      Bool.false_ne_true (hnot.symm.trans hunicast)
    refine ⟨(hround.source hunicast).resolve_right fun hone => ?_, hsame⟩
    have hin : sources.contains status.source = true := by
      rw [hone, hsame]
      exact List.contains_iff_mem.mpr (List.mem_singleton_self _)
    exact Bool.false_ne_true (hback.2.1.symm.trans hin)
  have hsources : isUnicastAddress message.destination = true →
      sources ++ [status.source] = [] ∨ sources ++ [status.source] = [message.destination] := by
    intro hunicast
    obtain ⟨hnil, hsame⟩ := hfirst hunicast
    exact .inr (by rw [hnil, hsame]; rfl)
  have hfree : isUnicastAddress message.destination = true →
      message.address = s.provisionAddress := fun hunicast =>
    (hround.address hunicast).resolve_right fun hnode => hnode.1 (hfirst hunicast).1
  unfold State.addressSet
  split
  case isFalse =>
    refine ⟨fun model' message' sources' hphase' => ?_, h.kept, fun mac hmac => ?_⟩
    · cases hphase'
      exact ⟨hround.mac, hsources, fun hunicast => .inl (hfree hunicast)⟩
    · refine (h.adopted mac hmac).imp_right fun hawaited => ?_
      obtain ⟨⟨round, hin, hmac⟩, hnext⟩ := hawaited
      rw [hphase] at hin
      exact ⟨⟨round, hin, hmac⟩, hnext⟩
  case isTrue hanswer =>
    set s' : State := { s with
      phase := .setAddress model message (sources ++ [status.source])
      setAddressList := s.setAddressList ++ [{ model with address := s.provisionAddress }]
      provisionAddress := s.provisionAddress + BitVec.ofNat 16 cfg.elementCount }
    have hnodes : s'.nodes = enter FastNode.macAddress ⟨model.macAddress, s.provisionAddress⟩
        s.nodes := nodes_concat s' { model with address := s.provisionAddress } rfl
    have hnode : ⟨model.macAddress, s.provisionAddress⟩ ∈ s'.nodes := hnodes ▸ self_mem_enter
    refine ⟨fun model' message' sources' hphase' => ?_, h.kept, fun mac hmac => .inl ?_⟩
    · cases hphase'
      refine ⟨hround.mac, hsources, fun hunicast => .inr ⟨by simp, ?_⟩⟩
      rw [hfree hunicast]
      exact hnode
    · by_cases hsame : mac = model.macAddress
      · subst hsame
        obtain ⟨-, hnext⟩ := hturn hanswer hmac
        exact hnext ▸ hnode
      · have hold : ⟨mac, (s.dev mac).eleAdrPrimary⟩ ∈ s.nodes := by
          refine (h.adopted mac hmac).resolve_right fun hawaited => ?_
          obtain ⟨⟨round, hin, hmac⟩, -⟩ := hawaited
          rw [hphase] at hin
          cases hin
          exact hsame (hmac.symm.trans hround.mac)
        exact hnodes ▸ mem_enter_of_key_ne hsame hold

end AdoptInv

theorem addressSet_phase (cfg : Config) (s : State) (model : SigFastProvisionModel)
    (status : AddressStatus) : (s.addressSet cfg model status).phase = s.phase := by
  unfold State.addressSet
  split
  · rfl
  · rfl

/-! ### A run -/

structure Inv (cfg : Config) (first : BitVec 16) (s : State) : Prop where
  sent : SentInv cfg first s
  adopt : AdoptInv s
  success : ∀ nodes, s.phase = .success nodes → nodes = s.nodes ∧ Settled s

namespace Inv

variable {cfg : Config} {first : BitVec 16} {s : State}

theorem start (first : BitVec 16) (dev : BitVec 48 → FastProvDev) :
    Inv cfg first (State.start first dev) where
  sent := ⟨.nil, Nat.zero_le _, fun h => absurd rfl h, nofun, nofun, nofun⟩
  adopt := ⟨nofun, nofun, nofun⟩
  success := nofun

/-- Another phase without a round begins. -/
theorem leave (h : Inv cfg first s) (hsettled : Settled s) {s' : State}
    (hnext : s'.provisionAddress = s.provisionAddress) (hdev : s'.dev = s.dev)
    (hadopted : s'.adopted = s.adopted) (hlist : s'.setAddressList = s.setAddressList)
    (hsent : s'.sent = s.sent) (hround : s'.phase.round = none)
    (hsuccess : ∀ nodes, s'.phase = .success nodes → nodes = s.nodes) : Inv cfg first s' where
  sent := h.sent.congr hnext hlist hsent
  adopt := h.adopt.of_no_round hsettled hdev hadopted hlist hround
  success := by
    intro nodes hphase
    have hnodes : s'.nodes = s.nodes := by
      unfold State.nodes
      rw [hlist]
    refine ⟨(hsuccess nodes hphase).trans hnodes.symm, fun mac hmac => ?_⟩
    rw [hadopted] at hmac
    rw [hnodes, hdev]
    exact hsettled mac hmac

/-- Only the scan changes. -/
theorem scan (h : Inv cfg first s) (list : List SigFastProvisionModel) :
    Inv cfg first { s with scanMacAddressList := list } := by
  refine ⟨h.sent.congr rfl rfl rfl, ⟨fun model message sources hphase => ?_, h.adopt.kept,
    h.adopt.adopted⟩, h.success⟩
  obtain ⟨hmac, hsource, haddress⟩ := h.adopt.round model message sources hphase
  exact ⟨hmac, hsource, haddress⟩

theorem setAddress (h : Inv cfg first s) (hsettled : Settled s) {model : SigFastProvisionModel}
    (hfits : s.Fits cfg) (hlast : ∀ last ∈ s.sent.getLast?, last.address = s.provisionAddress →
      last.macAddress = model.macAddress) : Inv cfg first (s.setAddress model) :=
  ⟨h.sent.setAddress hfits hlast, h.adopt.setAddress hsettled model, nofun⟩

theorem proceed (h : Inv cfg first s) {hasResponse : Bool}
    (hturn : InTurn cfg s (.proceed hasResponse)) : Inv cfg first (s.proceed hasResponse) := by
  obtain ⟨hsend, hround⟩ := hturn
  have hsettled : Settled s := h.adopt.settled hround
  unfold State.nextModel at hsend
  unfold State.proceed
  cases hphase : s.phase with
  | resetNetwork => exact h.leave hsettled rfl rfl rfl rfl rfl rfl nofun
  | getAddress sources =>
    rw [hphase] at hsend
    dsimp only [State.checkScanMacAddressList]
    split
    case h_1 model rest hlist =>
      obtain ⟨hfits, hlast⟩ := hsend model (by rw [hlist]; rfl)
      exact h.setAddress hsettled hfits hlast
    case h_2 => exact h.leave hsettled rfl rfl rfl rfl rfl rfl nofun
  | getAddressEmpty => exact h.leave hsettled rfl rfl rfl rfl rfl rfl nofun
  | setAddress model message sources =>
    rw [hphase] at hsend
    dsimp only [State.setAddressResult]
    split
    case h_1 model' rest hlist =>
      obtain ⟨hfits, hlast⟩ := hsend model' (by rw [hlist]; rfl)
      exact (h.scan (model' :: rest)).setAddress hsettled hfits hlast
    case h_2 => exact h.leave hsettled rfl rfl rfl rfl rfl rfl nofun
  | getAddressRetry sources =>
    rw [hphase] at hsend
    dsimp only [State.getAddressRetryFinish]
    split
    case h_1 model rest hlist =>
      obtain ⟨hfits, hlast⟩ := hsend model (by rw [hlist]; rfl)
      exact h.setAddress hsettled hfits hlast
    case h_2 =>
      split
      · exact h.leave hsettled rfl rfl rfl rfl rfl rfl nofun
      · exact h.leave hsettled rfl rfl rfl rfl rfl rfl nofun
  | setNetworkInfo => exact h.leave hsettled rfl rfl rfl rfl rfl rfl nofun
  | confirm =>
    dsimp only
    split
    · exact h.leave hsettled rfl rfl rfl rfl rfl rfl nofun
    · exact h.leave hsettled rfl rfl rfl rfl rfl rfl nofun
  | complete =>
    refine h.leave hsettled rfl rfl rfl rfl rfl rfl fun nodes hsuccess => ?_
    cases hsuccess
    rfl
  | success nodes => exact h
  | fail => exact h

theorem handle (h : Inv cfg first s) (mac : BitVec 48) (clock : BitVec 32) :
    Inv cfg first (s.handle cfg mac clock) := by
  unfold State.handle
  cases hphase : s.phase with
  | getAddress sources =>
    refine ⟨h.sent.congr rfl rfl rfl, h.adopt.handleGet mac clock none, fun nodes hsuccess => ?_⟩
    cases hphase.symm.trans hsuccess
  | getAddressRetry sources =>
    refine ⟨h.sent.congr rfl rfl rfl, h.adopt.handleGet mac clock _, fun nodes hsuccess => ?_⟩
    cases hphase.symm.trans hsuccess
  | setAddress model message sources =>
    dsimp only
    split
    case isFalse => exact h
    case isTrue hown =>
      refine ⟨?_, h.adopt.handleSet hphase hown, ?_⟩
      · unfold State.handleSet
        split
        · exact h.sent
        · exact h.sent.congr rfl rfl rfl
      · unfold State.handleSet
        split
        · exact h.success
        · intro nodes hsuccess
          cases hphase.symm.trans hsuccess
  | resetNetwork => exact h
  | getAddressEmpty => exact h
  | setNetworkInfo => exact h
  | confirm => exact h
  | complete => exact h
  | success nodes => exact h
  | fail => exact h

theorem deliver (h : Inv cfg first s) {status : AddressStatus} (hin : status ∈ s.flight)
    (hturn : InTurn cfg s (.deliver status)) : Inv cfg first (s.deliver cfg status) := by
  unfold State.deliver
  split
  case isFalse => exact h
  case isTrue hback =>
    have hno : s.phase.round = none → Settled s := fun hround =>
      h.adopt.settled (hround ▸ nofun)
    cases hphase : s.phase with
    | getAddress sources =>
      exact h.leave (hno (hphase ▸ rfl)) rfl rfl rfl rfl rfl rfl nofun
    | getAddressRetry sources =>
      exact h.leave (hno (hphase ▸ rfl)) rfl rfl rfl rfl rfl rfl nofun
    | setAddress model message sources =>
      have hround : (model, message) ∈ s.phase.round := by
        rw [hphase]
        rfl
      have htaken := hturn (model, message) hround hin hback
      have hsent : SentInv cfg first
          { s with phase := .setAddress model message (sources ++ [status.source]) } :=
        h.sent.congr rfl rfl rfl
      refine ⟨hsent.addressSet fun hanswer => (htaken hanswer).1,
        h.adopt.addressSet hphase hback fun hanswer => (htaken hanswer).2, ?_⟩
      intro nodes hsuccess
      cases (addressSet_phase cfg _ model status).symm.trans hsuccess
    | resetNetwork => exact h
    | getAddressEmpty => exact h
    | setNetworkInfo => exact h
    | confirm => exact h
    | complete => exact h
    | success nodes => exact h
    | fail => exact h

theorem next (h : Inv cfg first s) {e : Event} (hturn : InTurn cfg s e) :
    Inv cfg first (s.next cfg e) := by
  cases e with
  | proceed hasResponse => exact h.proceed hturn
  | handle mac clock => exact h.handle mac clock
  | deliver status =>
    unfold State.next
    dsimp only
    split
    case isTrue hin => exact h.deliver hin hturn
    case isFalse => exact h

/-- Nodes that are recorded were cut off one after the other. -/
theorem disjoint (h : Inv cfg first s) : s.nodes.Pairwise fun a b =>
    Disjoint (span a.address cfg.elementCount) (span b.address cfg.elementCount) := by
  have hcut : s.setAddressList.Pairwise fun a b =>
      Disjoint (span a.address cfg.elementCount) (span b.address cfg.elementCount) := by
    have hrev := h.sent.cut.disjoint h.sent.fits
    unfold State.ranges at hrev
    rw [List.pairwise_map, List.pairwise_reverse] at hrev
    exact hrev.imp fun hdisjoint => hdisjoint.symm
  have hmodel : ∀ {node}, node ∈ s.nodes → ∃ model ∈ s.setAddressList,
      node = ⟨model.macAddress, model.address⟩ := by
    intro node hnode
    have hin := (mem_of_mem_enterAll hnode).resolve_right List.not_mem_nil
    obtain ⟨model, hmem, heq⟩ := List.mem_map.mp hin
    exact ⟨model, hmem, heq.symm⟩
  have hnodup : s.nodes.Pairwise fun a b => a.macAddress ≠ b.macAddress :=
    List.pairwise_map.mp (nodup_nodes s)
  refine hnodup.imp_of_mem fun {a b} ha hb hne => ?_
  obtain ⟨model, hin, rfl⟩ := hmodel ha
  obtain ⟨model', hin', rfl⟩ := hmodel hb
  have hmodels : model ≠ model' := fun heq => hne (congrArg SigFastProvisionModel.macAddress heq)
  have hsymm : Std.Symm fun a b : SigFastProvisionModel =>
      Disjoint (span a.address cfg.elementCount) (span b.address cfg.elementCount) :=
    ⟨fun _ _ hdisjoint => hdisjoint.symm⟩
  exact hcut.forall hin hin' hmodels

end Inv

/-- **Addresses of a session.**  In a run whose events are all in turn no address is sent to two
devices, and a run that ends with success recorded every device that adopted an address with it,
and no element address twice. -/
theorem addresses_unique (cfg : Config) (first : BitVec 16) (dev : BitVec 48 → FastProvDev)
    (events : List Event)
    (hrun : GoodRun (State.next cfg) (InTurn cfg) (State.start first dev) events) :
    UniqueSent (events.foldl (State.next cfg) (State.start first dev)) ∧
      ∀ nodes, (events.foldl (State.next cfg) (State.start first dev)).phase = .success nodes →
        Allocated cfg (events.foldl (State.next cfg) (State.start first dev)) nodes := by
  have hinv := hrun.inv (Inv.start first dev) fun _ _ h hturn => h.next hturn
  refine ⟨hinv.sent.unique, fun nodes hphase => ?_⟩
  obtain ⟨rfl, hsettled⟩ := hinv.success nodes hphase
  exact ⟨nodup_nodes _, hinv.disjoint, hsettled⟩

/-! ### Two devices -/

/-- Two devices of one element that need provisioning. -/
def twoDevices : Config := ⟨fun _ => 7, 7, 1⟩

def freshDevice (address : BitVec 16) : FastProvDev :=
  FastProvDev.valInit ⟨meshFastProvValInit, false, false, none, .zero, address, false, false, false⟩

def freshDevices (mac : BitVec 48) : FastProvDev := freshDevice (0x300 + mac.setWidth 16)

/-- Both devices are found by the first scan, and their statuses come twice; then nothing is found
and the network is set. -/
def answeredRun : List Event :=
  let status (isSet : Bool) (mac : BitVec 48) : Event :=
    .deliver ⟨isSet, 0x300 + mac.setWidth 16, mac, 7⟩
  [.proceed false, .handle 1 0, .handle 2 0, status false 2, status false 1, status false 2,
    .proceed false, .handle 2 0, status true 2, status true 2, .proceed false,
    .handle 1 0, status true 1, .proceed false, .proceed false, .proceed false, .proceed false,
    .proceed false, .proceed false, .proceed false]

theorem addresses_unique_sample :
    UniqueSent (answeredRun.foldl (State.next twoDevices) (State.start 5 freshDevices)) ∧
      ∀ nodes, (answeredRun.foldl (State.next twoDevices) (State.start 5 freshDevices)).phase =
          .success nodes →
        Allocated twoDevices
          (answeredRun.foldl (State.next twoDevices) (State.start 5 freshDevices)) nodes :=
  addresses_unique twoDevices 5 freshDevices answeredRun (by decide +kernel)

/-- The same devices; the first status of an address-set is lost. -/
def lostRun : List Event :=
  let status (isSet : Bool) (mac : BitVec 48) : Event :=
    .deliver ⟨isSet, 0x300 + mac.setWidth 16, mac, 7⟩
  [.proceed false, .handle 1 0, .handle 2 0, status false 2, status false 1,
    .proceed false, .handle 2 0, .proceed false, .handle 1 0, status true 1, .proceed false,
    .proceed false, .proceed false, .proceed false, .proceed false, .proceed false, .proceed false]

/-- One address is sent to both devices, and the device whose status was lost is not recorded. -/
theorem addresses_unique_refuted :
    ¬ UniqueSent (lostRun.foldl (State.next twoDevices) (State.start 5 freshDevices)) ∧
      ∃ nodes, (lostRun.foldl (State.next twoDevices) (State.start 5 freshDevices)).phase =
          .success nodes ∧
        ¬ Allocated twoDevices
          (lostRun.foldl (State.next twoDevices) (State.start 5 freshDevices)) nodes := by
  constructor
  · intro h
    have hsent : (lostRun.foldl (State.next twoDevices) (State.start 5 freshDevices)).sent =
        [⟨5, 2, 0x302⟩, ⟨5, 1, 0x301⟩] := by
      decide +kernel
    have hmac := h ⟨5, 2, 0x302⟩ (hsent ▸ by simp) ⟨5, 1, 0x301⟩ (hsent ▸ by simp) rfl
    exact absurd hmac (by decide)
  · refine ⟨[⟨1, 5⟩], by decide +kernel, fun h => ?_⟩
    have hadopted : (2 : BitVec 48) ∈
        (lostRun.foldl (State.next twoDevices) (State.start 5 freshDevices)).adopted := by
      decide +kernel
    have hmem := List.mem_singleton.mp (h.adopted 2 hadopted)
    exact absurd (congrArg FastNode.macAddress hmem) (by decide)

end PirMesh.FastProvision
