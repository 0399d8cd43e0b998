import PirMesh.FastProv.Device
import PirMesh.Library.Run

/-! # FastProv — What a device installs, and when its session ends

Two results on a node that needs provisioning.  `install_iff`: what a pass
installs is the last data and AppKey of the session, behind an address-set, at
the address last acknowledged, exactly when no other address was acknowledged
after that data.  `ends_iff`: a session whose messages come in the order of the
protocol ends exactly when a pass sees the address-get before an address is set.

The handlers store at once, so the data cannot be missed; the opcode is a single
cell, so a transition can. -/

namespace PirMesh.FastProvDev

open Run

/-! ### The messages of a session -/

/-- The last of a list that `f` reads. -/
def lastOf {α : Type} (f : FastProvMsg → Option α) (l : List FastProvMsg) : Option α :=
  l.reverse.findSome? f

theorem lastOf_append {α : Type} (f : FastProvMsg → Option α) (l : List FastProvMsg)
    (m : FastProvMsg) : lastOf f (l ++ [m]) = (f m).or (lastOf f l) := by
  rw [lastOf, List.reverse_append, List.reverse_singleton, List.singleton_append,
    List.findSome?_cons]
  cases f m with
  | none => rfl
  | some a => rfl

theorem lastOf_isSome {α : Type} {f : FastProvMsg → Option α} {l : List FastProvMsg} :
    (lastOf f l).isSome ↔ ∃ m ∈ l, (f m).isSome := by
  rw [lastOf, List.findSome?_isSome_iff]
  simp only [List.mem_reverse]

/-- The address of an address-set message that names this node; it is acknowledged. -/
def setAddr (cfg : DevConfig) : FastProvMsg → Option (BitVec 16)
  | .addrSet mac addr => if mac = cfg.tblMac then some addr else none
  | _ => none

/-- The address, when the node takes it. -/
def adopted (cfg : DevConfig) (m : FastProvMsg) : Option (BitVec 16) :=
  (setAddr cfg m).filter isUnicast

def IsData (m : FastProvMsg) : Prop := ∃ data appkey, m = .provDataSet data appkey

/-- The last provision-data message of `l`, and what comes before it. -/
def LastData (l pre : List FastProvMsg) (data : ProvisonNetInfo) (appkey : MeshAppkeySetT) : Prop :=
  ∃ post, l = pre ++ .provDataSet data appkey :: post ∧ ∀ m ∈ post, ¬ IsData m

/-- What a session should install. -/
structure InstallOk (cfg : DevConfig) (received : List FastProvMsg) (info : FastProvNetInfo) :
    Prop where
  data : ∃ pre data appkey, LastData received pre data appkey ∧ info.appkeySet = appkey ∧
    info.proData = { data with unicastAddress := info.proData.unicastAddress } ∧
    ∃ m ∈ pre, (setAddr cfg m).isSome
  address : lastOf (setAddr cfg) received = some info.proData.unicastAddress

/-- The address the node had when the last data came is the last it acknowledged. -/
def AddressKept (cfg : DevConfig) (received : List FastProvMsg) : Prop :=
  ∃ pre data appkey, LastData received pre data appkey ∧
    lastOf (adopted cfg) pre = lastOf (setAddr cfg) received

theorem LastData.append {l pre : List FastProvMsg} {data : ProvisonNetInfo}
    {appkey : MeshAppkeySetT} (h : LastData l pre data appkey) {m : FastProvMsg}
    (hm : ¬ IsData m) : LastData (l ++ [m]) pre data appkey := by
  obtain ⟨post, rfl, hpost⟩ := h
  refine ⟨post ++ [m], by simp, fun k hk => ?_⟩
  cases List.mem_append.mp hk with
  | inl hmem => exact hpost k hmem
  | inr hmem => exact List.mem_singleton.mp hmem ▸ hm

/-- Behind a message that is not data the last data is the one before. -/
theorem LastData.of_append {l pre : List FastProvMsg} {data : ProvisonNetInfo}
    {appkey : MeshAppkeySetT} {m : FastProvMsg} (h : LastData (l ++ [m]) pre data appkey)
    (hm : ¬ IsData m) : LastData l pre data appkey := by
  obtain ⟨post, heq, hpost⟩ := h
  rcases History.split_snoc heq with ⟨-, hlast, -⟩ | ⟨post', rfl, hl⟩
  · exact absurd ⟨data, appkey, hlast.symm⟩ hm
  · exact ⟨post', hl, fun k hk => hpost k (List.mem_append_left _ hk)⟩

theorem LastData.data_append {l pre : List FastProvMsg} {data data' : ProvisonNetInfo}
    {appkey appkey' : MeshAppkeySetT}
    (h : LastData (l ++ [.provDataSet data' appkey']) pre data appkey) :
    pre = l ∧ data = data' ∧ appkey = appkey' := by
  obtain ⟨post, heq, hpost⟩ := h
  rcases History.split_snoc heq with ⟨hpre, hlast, -⟩ | ⟨post', rfl, -⟩
  · cases hlast
    exact ⟨hpre, rfl, rfl⟩
  · exact absurd ⟨data', appkey', rfl⟩ (hpost _ (List.mem_append_right _ List.mem_cons_self))

/-! ### What a message does -/

section

variable (cfg : DevConfig) (dev : FastProvDev) (clock : BitVec 32)

/-- What no message changes. -/
structure Same (dev dev' : FastProvDev) : Prop where
  notNeedProv : dev'.notNeedProv = dev.notNeedProv
  stored : dev'.stored = dev.stored
  provisioned : dev'.provisioned = dev.provisioned
  curSts : dev'.par.curSts = dev.par.curSts
  startTick : dev'.par.startTick = dev.par.startTick

theorem Same.refl (dev : FastProvDev) : Same dev dev := ⟨rfl, rfl, rfl, rfl, rfl⟩

theorem meshSetEleAdrLl_same (adr : BitVec 16) : Same dev (dev.meshSetEleAdrLl adr) := by
  rw [meshSetEleAdrLl]
  split <;> exact ⟨rfl, rfl, rfl, rfl, rfl⟩

theorem receive_same (m : FastProvMsg) : Same dev (dev.receive cfg clock m) := by
  cases m with
  | resetNetwork delay =>
    rw [receive, cbVdMeshResetNetwork]
    split <;> exact ⟨rfl, rfl, rfl, rfl, rfl⟩
  | addrGet pid eleAddr =>
    rw [receive, cbVdMeshGetAddr.eq_def]
    split
    · exact .refl dev
    · cases eleAddr with
      | none => exact ⟨rfl, rfl, rfl, rfl, rfl⟩
      | some adr =>
        dsimp only
        split
        · have h := meshSetEleAdrLl_same { dev with defaultAddrRandom := true }
            (defaultEleAddr adr clock)
          exact ⟨h.1, h.2, h.3, h.4, h.5⟩
        · exact ⟨rfl, rfl, rfl, rfl, rfl⟩
  | addrSet mac addr =>
    rw [receive, cbVdMeshSetAddr]
    split
    · exact .refl dev
    · split
      · dsimp only
        split
        · have h := meshSetEleAdrLl_same (dev.meshFastProvRcvOp .addrSet) addr
          exact ⟨h.1, h.2, h.3, h.4, h.5⟩
        · exact ⟨rfl, rfl, rfl, rfl, rfl⟩
      · exact .refl dev
  | provDataSet data appkey =>
    rw [receive, cbVdMeshSetProvisionData]
    split <;> exact ⟨rfl, rfl, rfl, rfl, rfl⟩
  | provConfirm =>
    rw [receive, cbVdMeshProvisionConfirm]
    split <;> exact ⟨rfl, rfl, rfl, rfl, rfl⟩
  | provComplete delay => exact ⟨rfl, rfl, rfl, rfl, rfl⟩

variable {dev} (hneed : dev.notNeedProv = false)

include hneed

/-- An address-set for this node. -/
theorem receive_addrSet (addr : BitVec 16) :
    (dev.receive cfg clock (.addrSet cfg.tblMac addr)).getMacEn = false ∧
      (dev.receive cfg clock (.addrSet cfg.tblMac addr)).netInfo = dev.netInfo ∧
      (isUnicast addr = true →
        (dev.receive cfg clock (.addrSet cfg.tblMac addr)).eleAdrPrimary = addr ∧
        (dev.receive cfg clock (.addrSet cfg.tblMac addr)).rcvOp = some .addrSet) ∧
      (isUnicast addr = false →
        (dev.receive cfg clock (.addrSet cfg.tblMac addr)).eleAdrPrimary = dev.eleAdrPrimary ∧
        (dev.receive cfg clock (.addrSet cfg.tblMac addr)).rcvOp = dev.rcvOp) := by
  rw [receive, cbVdMeshSetAddr, if_neg (by simp [hneed]), if_pos rfl]
  by_cases huni : isUnicast addr = true
  · have hne : addr ≠ 0 := by
      rintro rfl
      exact absurd huni (by decide)
    rw [if_pos ⟨hne, huni⟩, meshSetEleAdrLl, if_pos huni]
    exact ⟨rfl, rfl, fun _ => ⟨rfl, rfl⟩, fun h => absurd huni (by simp [h])⟩
  · rw [if_neg fun h => huni h.2]
    exact ⟨rfl, rfl, fun h => absurd h huni, fun _ => ⟨rfl, rfl⟩⟩

theorem receive_addrSet_other {mac : BitVec 48} (h : mac ≠ cfg.tblMac) (addr : BitVec 16) :
    dev.receive cfg clock (.addrSet mac addr) = dev := by
  rw [receive, cbVdMeshSetAddr, if_neg (by simp [hneed]), if_neg h]

omit hneed in
theorem receive_addrGet_off (h : dev.getMacEn = false) (pid : BitVec 16)
    (eleAddr : Option (BitVec 16)) : dev.receive cfg clock (.addrGet pid eleAddr) = dev := by
  rw [receive, cbVdMeshGetAddr.eq_def, if_pos (by simp [h])]

theorem receive_addrGet_on (h : dev.getMacEn = true) (pid : BitVec 16)
    (eleAddr : Option (BitVec 16)) :
    (dev.receive cfg clock (.addrGet pid eleAddr)).rcvOp = some .addrGet ∧
      (dev.receive cfg clock (.addrGet pid eleAddr)).getMacEn = true ∧
      (dev.receive cfg clock (.addrGet pid eleAddr)).netInfo = dev.netInfo := by
  rw [receive, cbVdMeshGetAddr.eq_def, if_neg (by simp [h, hneed])]
  refine ⟨rfl, ?_, ?_⟩
  · cases eleAddr with
    | none => exact h
    | some adr =>
      dsimp only [meshFastProvRcvOp]
      split
      · rw [meshSetEleAdrLl]
        split <;> exact h
      · exact h
  · cases eleAddr with
    | none => rfl
    | some adr =>
      dsimp only [meshFastProvRcvOp]
      split
      · rw [meshSetEleAdrLl]
        split <;> rfl
      · rfl

theorem receive_resetNetwork (delay : BitVec 16) :
    dev.receive cfg clock (.resetNetwork delay) = dev := by
  rw [receive, cbVdMeshResetNetwork, if_pos (by simp [hneed])]

theorem receive_data (data : ProvisonNetInfo) (appkey : MeshAppkeySetT) :
    dev.receive cfg clock (.provDataSet data appkey) =
      { dev with
        rcvOp := some .provDataSet
        netInfo := ⟨{ data with unicastAddress := dev.eleAdrPrimary }, appkey⟩ } := by
  rw [receive, cbVdMeshSetProvisionData, if_neg (by simp [hneed])]
  rfl

theorem receive_confirm : dev.receive cfg clock .provConfirm =
    { dev with rcvOp := some .provConfirm } := by
  rw [receive, cbVdMeshProvisionConfirm, if_neg (by simp [hneed])]
  rfl

end

/-! ### What a pass does -/

/-- A node without a network, before a session. -/
structure Fresh (dev : FastProvDev) : Prop where
  valInit : dev = dev.valInit
  provisioned : dev.provisioned = false
  stored : dev.stored = false

/-- The time for the session is over. -/
def TimeIsUp (dev : FastProvDev) (clock : BitVec 32) : Prop :=
  dev.par.startTick ≠ 0 ∧ clockTickExceed clock dev.par.startTick fastProvisionTimeoutUs = true

theorem Fresh.idle {dev : FastProvDev} (h : Fresh dev) : dev.par.curSts = .idle := by
  rw [h.valInit]
  rfl

theorem Fresh.rcvOp {dev : FastProvDev} (h : Fresh dev) : dev.rcvOp = none := by
  rw [h.valInit]
  rfl

theorem resetOver_of_ne {dev : FastProvDev} (h : dev.par.curSts ≠ .resetNetwork)
    (clock : BitVec 32) : dev.resetOver clock = dev := if_neg fun hr => h hr.1

theorem completeOver_of_ne (cfg : DevConfig) {dev : FastProvDev} (h : dev.par.curSts ≠ .complete)
    (h' : dev.par.curSts ≠ .timeOut) (clock : BitVec 32) :
    dev.completeOver cfg clock = (dev, none) := by
  rw [completeOver, if_neg]
  rintro (hc | ht)
  · exact h hc.1
  · exact h' ht

theorem Fresh.switch {dev : FastProvDev} (h : Fresh dev) (clock : BitVec 32) :
    dev.switch clock = dev := by
  rw [FastProvDev.switch, h.rcvOp, h.idle]
  rfl

@[simp] theorem stsSet_curSts (dev : FastProvDev) (sts : FastProvSts) (clock : BitVec 32) :
    (dev.stsSet sts clock).par.curSts = sts := by
  rw [stsSet, meshFastProvStsSet]
  dsimp only
  split
  · rfl
  · rename_i h
    exact (not_not.mp h).symm

theorem stsSet_startTick (dev : FastProvDev) {sts : FastProvSts} (h : sts ≠ .idle)
    (clock : BitVec 32) : (dev.stsSet sts clock).par.startTick ≠ 0 := by
  have hodd : clock ||| 1 ≠ 0 := by
    intro hzero
    have hbit := congrArg (BitVec.getLsbD · 0) hzero
    simp at hbit
  rw [stsSet, meshFastProvStsSet]
  dsimp only
  rw [if_neg h]
  split <;> exact hodd

theorem provisionTimeout_up (cfg : DevConfig) {dev : FastProvDev} (hstored : dev.stored = false)
    {clock : BitVec 32} (h : TimeIsUp dev clock) :
    ∃ dev', dev.provisionTimeout cfg clock = (dev', some .timedOut) ∧ Fresh dev' := by
  have hsts : ¬ ((!(dev.stsSet .timeOut clock).notNeedProv) = true ∧
      (dev.stsSet .timeOut clock).par.curSts = .complete) := by
    rw [stsSet_curSts]
    rintro ⟨-, hc⟩
    cases hc
  rw [provisionTimeout, if_pos ⟨h.1, h.2⟩]
  dsimp only
  rw [revertNetwork, if_neg hsts]
  exact ⟨_, rfl, rfl, hstored, hstored⟩

theorem completeOver_complete (cfg : DevConfig) {dev : FastProvDev}
    (hneed : dev.notNeedProv = false) {clock : BitVec 32}
    (h : dev.par.curSts = .complete ∧ dev.delayOver clock = true) :
    ∃ dev', dev.completeOver cfg clock = (dev', some (.installed dev.netInfo)) ∧
      dev'.notNeedProv = true ∧ dev'.stored = true ∧ dev'.rcvOp = none := by
  rw [completeOver, if_pos (.inl h)]
  dsimp only
  rw [revertNetwork, if_pos ⟨by simp [hneed], h.1⟩]
  have hsame := meshSetEleAdrLl_same
    { dev with par.delay := 0, provisioned := true, stored := true }
    dev.netInfo.proData.unicastAddress
  exact ⟨_, rfl, hsame.provisioned, hsame.stored, rfl⟩

/-- A pass on a device that waits to be provisioned. -/
theorem proc_cases (cfg : DevConfig) {dev : FastProvDev} (hneed : dev.notNeedProv = false)
    (hstored : dev.stored = false) (hreset : dev.par.curSts ≠ .resetNetwork)
    (htime : dev.par.curSts ≠ .timeOut) (clock : BitVec 32) :
    (TimeIsUp dev clock ∧ ∃ dev', dev.proc cfg false clock = (dev', some .timedOut) ∧
      Fresh dev') ∨
    (dev.par.curSts = .complete ∧ ∃ dev',
      dev.proc cfg false clock = (dev', some (.installed dev.netInfo)) ∧
        dev'.notNeedProv = true ∧ dev'.stored = true) ∨
    (¬ TimeIsUp dev clock ∧ dev.proc cfg false clock = (dev.switch clock, none)) := by
  rw [proc, if_neg Bool.false_ne_true]
  by_cases hup : TimeIsUp dev clock
  · obtain ⟨dev', hrevert, hfresh⟩ := provisionTimeout_up cfg hstored hup
    have hne : ∀ sts, sts ≠ .idle → dev'.par.curSts ≠ sts := by
      intro sts hsts heq
      exact hsts (heq.symm.trans hfresh.idle)
    refine .inl ⟨hup, dev', ?_, hfresh⟩
    rw [hrevert]
    dsimp only
    rw [resetOver_of_ne (hne _ (by decide)), completeOver_of_ne cfg (hne _ (by decide))
      (hne _ (by decide)), hfresh.switch]
    rfl
  · have hgo : dev.provisionTimeout cfg clock = (dev, none) := if_neg hup
    rw [hgo]
    dsimp only
    rw [resetOver_of_ne hreset]
    by_cases hdone : dev.par.curSts = .complete ∧ dev.delayOver clock = true
    · obtain ⟨dev', hinstall, hneed', hstored', hop⟩ := completeOver_complete cfg hneed hdone
      refine .inr (.inl ⟨hdone.1, dev', ?_, hneed', hstored'⟩)
      rw [hinstall]
      dsimp only
      rw [FastProvDev.switch, hop]
      rfl
    · have hstay : dev.completeOver cfg clock = (dev, none) := by
        rw [completeOver, if_neg]
        rintro (hc | ht)
        · exact hdone hc
        · exact htime ht
      refine .inr (.inr ⟨hup, ?_⟩)
      rw [hstay]
      rfl

/-- The six transitions. -/
theorem target_some {op : Option VdMeshOp} {cur sts : FastProvSts} (h : target op cur = some sts) :
    (op = some .resetNetwork ∧ cur = .idle ∧ sts = .resetNetwork) ∨
    (op = some .addrGet ∧ cur = .idle ∧ sts = .getAddr) ∨
    (op = some .addrSet ∧ cur = .getAddr ∧ sts = .setAddr) ∨
    (op = some .provDataSet ∧ cur = .setAddr ∧ sts = .netInfo) ∨
    (op = some .provConfirm ∧ cur = .netInfo ∧ sts = .confirm) ∨
    (op = some .provComplete ∧ cur = .confirm ∧ sts = .complete) := by
  unfold target at h
  split at h <;> cases h <;> simp

/-! ### The invariant of a session -/

section

variable {cfg : DevConfig}

/-- The node took an address. -/
def Adopts (cfg : DevConfig) (l : List FastProvMsg) : Prop := (lastOf (adopted cfg) l).isSome

/-- The last data came behind an address. -/
def Ready (cfg : DevConfig) (l : List FastProvMsg) : Prop :=
  ∃ pre data appkey, LastData l pre data appkey ∧ Adopts cfg pre

theorem Adopts.append {l : List FastProvMsg} (h : Adopts cfg l) (m : FastProvMsg) :
    Adopts cfg (l ++ [m]) := by
  obtain ⟨k, hk, hadopts⟩ := lastOf_isSome.mp h
  exact lastOf_isSome.mpr ⟨k, List.mem_append_left _ hk, hadopts⟩

theorem Adopts.names {l : List FastProvMsg} (h : Adopts cfg l) :
    ∃ m ∈ l, (setAddr cfg m).isSome := by
  obtain ⟨m, hm, hadopts⟩ := lastOf_isSome.mp h
  obtain ⟨a, ha⟩ := Option.isSome_iff_exists.mp hadopts
  exact ⟨m, hm, by rw [(Option.filter_eq_some_iff.mp ha).1]; rfl⟩

theorem LastData.mem {l pre : List FastProvMsg} {data : ProvisonNetInfo}
    {appkey : MeshAppkeySetT} (h : LastData l pre data appkey) {m : FastProvMsg} (hm : m ∈ pre) :
    m ∈ l := by
  obtain ⟨post, rfl, -⟩ := h
  exact List.mem_append_left _ hm

theorem Ready.adopts {l : List FastProvMsg} (h : Ready cfg l) : Adopts cfg l := by
  obtain ⟨pre, data, appkey, hlast, hpre⟩ := h
  obtain ⟨m, hm, hadopts⟩ := lastOf_isSome.mp hpre
  exact lastOf_isSome.mpr ⟨m, hlast.mem hm, hadopts⟩

theorem Ready.append {l : List FastProvMsg} (h : Ready cfg l) {m : FastProvMsg}
    (hm : ¬ IsData m) : Ready cfg (l ++ [m]) := by
  obtain ⟨pre, data, appkey, hlast, hpre⟩ := h
  exact ⟨pre, data, appkey, hlast.append hm, hpre⟩

theorem Adopts.ready {l : List FastProvMsg} (h : Adopts cfg l) (data : ProvisonNetInfo)
    (appkey : MeshAppkeySetT) : Ready cfg (l ++ [.provDataSet data appkey]) :=
  ⟨l, data, appkey, ⟨[], rfl, fun _ hm => absurd hm List.not_mem_nil⟩, h⟩

/-- What holds of a device in a session. -/
structure Session (cfg : DevConfig) (dev : FastProvDev) (received : List FastProvMsg) : Prop where
  mac : (∃ m ∈ received, (setAddr cfg m).isSome) → dev.getMacEn = false
  address : ∀ a, lastOf (adopted cfg) received = some a → dev.eleAdrPrimary = a
  data : ∀ pre data appkey, LastData received pre data appkey →
    dev.netInfo.appkeySet = appkey ∧
      dev.netInfo.proData =
        { data with unicastAddress := dev.netInfo.proData.unicastAddress } ∧
      ∀ a, lastOf (adopted cfg) pre = some a → dev.netInfo.proData.unicastAddress = a
  setOp : dev.rcvOp = some .addrSet → Adopts cfg received
  setSts : dev.par.curSts = .setAddr →
    Adopts cfg received ∧ (dev.rcvOp = some .provDataSet → Ready cfg received)
  later : dev.par.curSts = .netInfo ∨ dev.par.curSts = .confirm ∨ dev.par.curSts = .complete →
    Ready cfg received
  noResetOp : dev.rcvOp ≠ some .resetNetwork
  noReset : dev.par.curSts ≠ .resetNetwork
  noTimeOut : dev.par.curSts ≠ .timeOut

theorem Fresh.session {dev : FastProvDev} (h : Fresh dev) : Session cfg dev [] where
  mac hm := absurd hm.choose_spec.1 List.not_mem_nil
  address a ha := nomatch ha
  data pre data appkey hlast := by
    obtain ⟨post, heq, -⟩ := hlast
    simp at heq
  setOp hop := by
    rw [h.rcvOp] at hop
    cases hop
  setSts hsts := by
    rw [h.idle] at hsts
    cases hsts
  later hsts := by
    rw [h.idle] at hsts
    rcases hsts with hc | hc | hc <;> cases hc
  noResetOp := by
    rw [h.rcvOp]
    nofun
  noReset := by
    rw [h.idle]
    decide
  noTimeOut := by
    rw [h.idle]
    decide

/-- A message that names neither the node nor data. -/
theorem Session.quiet {dev dev' : FastProvDev} {received : List FastProvMsg}
    (h : Session cfg dev received) {m : FastProvMsg} (hdata : ¬ IsData m)
    (hset : setAddr cfg m = none) (hsame : Same dev dev') (hnet : dev'.netInfo = dev.netInfo)
    (hmac : dev.getMacEn = false →
      dev'.getMacEn = false ∧ dev'.eleAdrPrimary = dev.eleAdrPrimary)
    (hop : dev'.rcvOp = dev.rcvOp ∨ ∃ op, dev'.rcvOp = some op ∧ op ≠ .addrSet ∧
      op ≠ .provDataSet ∧ op ≠ .resetNetwork) :
    Session cfg dev' (received ++ [m]) := by
  have hadopted : adopted cfg m = none := by
    rw [adopted, hset]
    rfl
  have hnames : (∃ k ∈ received ++ [m], (setAddr cfg k).isSome) → dev.getMacEn = false := by
    rintro ⟨k, hk, hsome⟩
    cases List.mem_append.mp hk with
    | inl hmem => exact h.mac ⟨k, hmem, hsome⟩
    | inr hmem =>
      rw [List.mem_singleton.mp hmem, hset] at hsome
      cases hsome
  have hrcv : ∀ op, op = .addrSet ∨ op = .provDataSet ∨ op = .resetNetwork →
      dev'.rcvOp = some op → dev.rcvOp = some op := by
    intro op hkind hrcv
    rcases hop with heq | ⟨op', heq, hne⟩
    · rw [← heq, hrcv]
    · rw [heq] at hrcv
      cases hrcv
      rcases hkind with rfl | rfl | rfl
      · exact absurd rfl hne.1
      · exact absurd rfl hne.2.1
      · exact absurd rfl hne.2.2
  constructor
  case mac => exact fun hk => (hmac (hnames hk)).1
  case address =>
    intro a ha
    rw [lastOf_append, hadopted, Option.none_or] at ha
    have hadopts : Adopts cfg received := by
      rw [Adopts, ha]
      rfl
    have hon := h.mac hadopts.names
    rw [(hmac hon).2]
    exact h.address a ha
  case data =>
    intro pre data appkey hlast
    rw [hnet]
    exact h.data pre data appkey (hlast.of_append hdata)
  case setOp => exact fun hop => (h.setOp (hrcv _ (.inl rfl) hop)).append m
  case setSts =>
    intro hsts
    rw [hsame.curSts] at hsts
    obtain ⟨hadopts, hready⟩ := h.setSts hsts
    exact ⟨hadopts.append m, fun hop => (hready (hrcv _ (.inr (.inl rfl)) hop)).append hdata⟩
  case later =>
    intro hsts
    rw [hsame.curSts] at hsts
    exact (h.later hsts).append hdata
  case noResetOp => exact fun hop => h.noResetOp (hrcv _ (.inr (.inr rfl)) hop)
  case noReset => rw [hsame.curSts]; exact h.noReset
  case noTimeOut => rw [hsame.curSts]; exact h.noTimeOut

theorem Session.addrSet {dev : FastProvDev} {received : List FastProvMsg}
    (h : Session cfg dev received) (hneed : dev.notNeedProv = false) (addr : BitVec 16)
    (clock : BitVec 32) :
    Session cfg (dev.receive cfg clock (.addrSet cfg.tblMac addr))
      (received ++ [.addrSet cfg.tblMac addr]) := by
  have hdata : ¬ IsData (.addrSet cfg.tblMac addr) := by
    rintro ⟨data, appkey, heq⟩
    cases heq
  have hset : setAddr cfg (.addrSet cfg.tblMac addr) = some addr := if_pos rfl
  have hsame := receive_same cfg dev clock (.addrSet cfg.tblMac addr)
  obtain ⟨hmac, hnet, huni, hother⟩ := receive_addrSet cfg clock hneed addr
  have hadopted : adopted cfg (.addrSet cfg.tblMac addr) =
      if isUnicast addr = true then some addr else none := by
    rw [adopted, hset, Option.filter_some]
  constructor
  case mac => exact fun _ => hmac
  case address =>
    intro a ha
    rw [lastOf_append, hadopted] at ha
    by_cases hadr : isUnicast addr = true
    · rw [if_pos hadr] at ha
      cases ha
      exact (huni hadr).1
    · rw [if_neg hadr] at ha
      rw [(hother (Bool.eq_false_of_not_eq_true hadr)).1]
      exact h.address a ha
  case data =>
    intro pre data appkey hlast
    rw [hnet]
    exact h.data pre data appkey (hlast.of_append hdata)
  case setOp =>
    intro hop
    by_cases hadr : isUnicast addr = true
    · rw [Adopts, lastOf_append, hadopted, if_pos hadr]
      rfl
    · rw [(hother (Bool.eq_false_of_not_eq_true hadr)).2] at hop
      exact (h.setOp hop).append _
  case setSts =>
    intro hsts
    rw [hsame.curSts] at hsts
    obtain ⟨hadopts, hready⟩ := h.setSts hsts
    refine ⟨hadopts.append _, fun hop => ?_⟩
    by_cases hadr : isUnicast addr = true
    · rw [(huni hadr).2] at hop
      cases hop
    · rw [(hother (Bool.eq_false_of_not_eq_true hadr)).2] at hop
      exact (hready hop).append hdata
  case later =>
    intro hsts
    rw [hsame.curSts] at hsts
    exact (h.later hsts).append hdata
  case noResetOp =>
    by_cases hadr : isUnicast addr = true
    · rw [(huni hadr).2]
      nofun
    · rw [(hother (Bool.eq_false_of_not_eq_true hadr)).2]
      exact h.noResetOp
  case noReset => rw [hsame.curSts]; exact h.noReset
  case noTimeOut => rw [hsame.curSts]; exact h.noTimeOut

theorem Session.provData {dev : FastProvDev} {received : List FastProvMsg}
    (h : Session cfg dev received) (hneed : dev.notNeedProv = false) (data : ProvisonNetInfo)
    (appkey : MeshAppkeySetT) (clock : BitVec 32) :
    Session cfg (dev.receive cfg clock (.provDataSet data appkey))
      (received ++ [.provDataSet data appkey]) := by
  have hadopted : ∀ {l}, lastOf (adopted cfg) (l ++ [.provDataSet data appkey]) =
      lastOf (adopted cfg) l := fun {l} => lastOf_append _ l _
  rw [receive_data cfg clock hneed]
  constructor
  case mac =>
    rintro ⟨k, hk, hsome⟩
    cases List.mem_append.mp hk with
    | inl hmem => exact h.mac ⟨k, hmem, hsome⟩
    | inr hmem =>
      rw [List.mem_singleton.mp hmem] at hsome
      cases hsome
  case address =>
    intro a ha
    rw [hadopted] at ha
    exact h.address a ha
  case data =>
    intro pre data' appkey' hlast
    obtain ⟨rfl, rfl, rfl⟩ := hlast.data_append
    exact ⟨rfl, rfl, h.address⟩
  case setOp => exact fun hop => nomatch hop
  case setSts =>
    intro hsts
    have hadopts := (h.setSts hsts).1
    exact ⟨hadopts.append _, fun _ => hadopts.ready _ _⟩
  case later => exact fun hsts => (h.later hsts).adopts.ready _ _
  case noResetOp => nofun
  case noReset => exact h.noReset
  case noTimeOut => exact h.noTimeOut

theorem Session.message {dev : FastProvDev} {received : List FastProvMsg}
    (h : Session cfg dev received) (hneed : dev.notNeedProv = false) (m : FastProvMsg)
    (clock : BitVec 32) : Session cfg (dev.receive cfg clock m) (received ++ [m]) := by
  have hsame := receive_same cfg dev clock m
  cases m with
  | resetNetwork delay =>
    rw [receive_resetNetwork cfg clock hneed]
    exact h.quiet (by rintro ⟨_, _, heq⟩; cases heq) rfl (.refl dev) rfl
      (fun hoff => ⟨hoff, rfl⟩) (.inl rfl)
  | addrGet pid eleAddr =>
    cases hmac : dev.getMacEn with
    | false =>
      rw [receive_addrGet_off cfg clock hmac]
      exact h.quiet (by rintro ⟨_, _, heq⟩; cases heq) rfl (.refl dev) rfl
        (fun hoff => ⟨hoff, rfl⟩) (.inl rfl)
    | true =>
      obtain ⟨hop, -, hnet⟩ := receive_addrGet_on cfg clock hneed hmac pid eleAddr
      exact h.quiet (by rintro ⟨_, _, heq⟩; cases heq) rfl hsame hnet
        (fun hoff => by rw [hmac] at hoff; cases hoff) (.inr ⟨_, hop, by decide⟩)
  | addrSet mac addr =>
    by_cases hmac : mac = cfg.tblMac
    · cases hmac
      exact h.addrSet hneed addr clock
    · rw [receive_addrSet_other cfg clock hneed hmac]
      exact h.quiet (by rintro ⟨_, _, heq⟩; cases heq) (if_neg hmac) (.refl dev) rfl
        (fun hoff => ⟨hoff, rfl⟩) (.inl rfl)
  | provDataSet data appkey => exact h.provData hneed data appkey clock
  | provConfirm =>
    rw [receive_confirm cfg clock hneed]
    exact h.quiet (by rintro ⟨_, _, heq⟩; cases heq) rfl ⟨rfl, rfl, rfl, rfl, rfl⟩ rfl
      (fun hoff => ⟨hoff, rfl⟩) (.inr ⟨_, rfl, by decide⟩)
  | provComplete delay =>
    exact h.quiet (by rintro ⟨_, _, heq⟩; cases heq) rfl hsame rfl
      (fun hoff => ⟨hoff, rfl⟩) (.inr ⟨_, rfl, by decide⟩)

/-- The transitions of a session. -/
theorem Session.switch {dev : FastProvDev} {received : List FastProvMsg}
    (h : Session cfg dev received) (clock : BitVec 32) :
    Session cfg (dev.switch clock) received := by
  rw [FastProvDev.switch]
  cases htarget : target dev.rcvOp dev.par.curSts with
  | none => exact h
  | some sts =>
    have hcur := stsSet_curSts dev sts clock
    have hcases := target_some htarget
    refine ⟨h.mac, h.address, h.data, h.setOp, fun hset => ?_, fun hlater => ?_, h.noResetOp,
      fun hr => ?_, fun ht => ?_⟩
    · rw [hcur] at hset
      cases hset
      rcases hcases with h1 | h1 | h1 | h1 | h1 | h1 <;> cases h1.2.2
      refine ⟨h.setOp h1.1, fun hop => ?_⟩
      rw [show (dev.stsSet .setAddr clock).rcvOp = dev.rcvOp from rfl, h1.1] at hop
      cases hop
    · rw [hcur] at hlater
      rcases hcases with h1 | h1 | h1 | h1 | h1 | h1
      · rw [h1.2.2] at hlater
        rcases hlater with hc | hc | hc <;> cases hc
      · rw [h1.2.2] at hlater
        rcases hlater with hc | hc | hc <;> cases hc
      · rw [h1.2.2] at hlater
        rcases hlater with hc | hc | hc <;> cases hc
      · exact (h.setSts h1.2.1).2 h1.1
      · exact h.later (.inl h1.2.1)
      · exact h.later (.inr (.inl h1.2.1))
    · rw [hcur] at hr
      cases hr
      rcases hcases with h1 | h1 | h1 | h1 | h1 | h1
      · exact h.noResetOp h1.1
      all_goals cases h1.2.2
    · rw [hcur] at ht
      cases ht
      rcases hcases with h1 | h1 | h1 | h1 | h1 | h1 <;> cases h1.2.2

/-! ### Runs -/

/-- A node either has a network in flash, or is in a session. -/
def RunInv (cfg : DevConfig) (r : DevRun) : Prop :=
  r.dev.notNeedProv = r.dev.stored ∧
    (r.dev.notNeedProv = false → Session cfg r.dev r.received)

/-- The node has a network in flash. -/
def HasNetwork (dev : FastProvDev) : Prop := dev.notNeedProv = true ∧ dev.stored = true

theorem HasNetwork.revert {dev : FastProvDev} (h : HasNetwork dev) (cfg : DevConfig) :
    HasNetwork (dev.revertNetwork cfg).1 ∧ (dev.revertNetwork cfg).2 = .timedOut := by
  rw [revertNetwork, if_neg (by simp [h.1])]
  exact ⟨⟨h.2, h.2⟩, rfl⟩

theorem switch_same (dev : FastProvDev) (clock : BitVec 32) :
    (dev.switch clock).notNeedProv = dev.notNeedProv ∧
      (dev.switch clock).stored = dev.stored := by
  rw [FastProvDev.switch]
  split <;> exact ⟨rfl, rfl⟩

/-- A pass of a node that has a network in flash installs nothing. -/
theorem HasNetwork.proc {dev : FastProvDev} (h : HasNetwork dev) (cfg : DevConfig) (busy : Bool)
    (clock : BitVec 32) :
    HasNetwork (dev.proc cfg busy clock).1 ∧
      ∀ info, (dev.proc cfg busy clock).2 ≠ some (.installed info) := by
  have htimeout : HasNetwork (dev.provisionTimeout cfg clock).1 ∧
      ∀ info, (dev.provisionTimeout cfg clock).2 ≠ some (.installed info) := by
    rw [provisionTimeout]
    split
    · have h' : HasNetwork { dev.stsSet .timeOut clock with par.startTick := 0 } := h
      obtain ⟨hkeep, hout⟩ := h'.revert cfg
      exact ⟨hkeep, fun info heq => by cases hout.symm.trans (Option.some.inj heq)⟩
    · exact ⟨h, nofun⟩
  have hcomplete : ∀ dev : FastProvDev, HasNetwork dev →
      HasNetwork (dev.completeOver cfg clock).1 ∧
        ∀ info, (dev.completeOver cfg clock).2 ≠ some (.installed info) := by
    intro dev h
    rw [completeOver]
    split
    · have h' : HasNetwork { dev with par.delay := 0 } := h
      obtain ⟨hkeep, hout⟩ := h'.revert cfg
      exact ⟨hkeep, fun info heq => by cases hout.symm.trans (Option.some.inj heq)⟩
    · exact ⟨h, nofun⟩
  have hreset : ∀ dev : FastProvDev, HasNetwork dev → HasNetwork (dev.resetOver clock) := by
    intro dev h
    rw [resetOver]
    split <;> exact h
  cases busy with
  | true => exact ⟨h, nofun⟩
  | false =>
    obtain ⟨hkeep, hout⟩ := hcomplete _ (hreset _ htimeout.1)
    have hswitch := switch_same
      (((dev.provisionTimeout cfg clock).1.resetOver clock).completeOver cfg clock).1 clock
    refine ⟨⟨hswitch.1.trans hkeep.1, hswitch.2.trans hkeep.2⟩, fun info heq => ?_⟩
    have heq' : (dev.provisionTimeout cfg clock).2.or
        (((dev.provisionTimeout cfg clock).1.resetOver clock).completeOver cfg clock).2 =
        some (.installed info) := heq
    cases hfirst : (dev.provisionTimeout cfg clock).2 with
    | some outcome =>
      rw [hfirst] at heq'
      exact htimeout.2 info (hfirst.trans heq')
    | none =>
      rw [hfirst] at heq'
      exact hout info heq'

theorem RunInv.next {r : DevRun} (h : RunInv cfg r) (e : DevEvent) : RunInv cfg (r.next cfg e) := by
  obtain ⟨hstored, hsession⟩ := h
  cases e with
  | message m clock =>
    have hsame := receive_same cfg r.dev clock m
    refine ⟨?_, fun hneed => ?_⟩
    · rw [DevRun.next]
      dsimp only
      rw [hsame.notNeedProv, hsame.stored, hstored]
    · rw [DevRun.next] at hneed
      dsimp only at hneed
      rw [hsame.notNeedProv] at hneed
      exact (hsession hneed).message hneed m clock
  | pass busy clock =>
    cases hneed : r.dev.notNeedProv with
    | true =>
      obtain ⟨hkeep, -⟩ := HasNetwork.proc ⟨hneed, hstored.symm.trans hneed⟩ cfg busy clock
      have hinv : ∀ dev' : FastProvDev, HasNetwork dev' → ∀ received outcomes,
          RunInv cfg ⟨dev', received, outcomes⟩ := by
        intro dev' hdev received outcomes
        refine ⟨hdev.1.trans hdev.2.symm, fun hno => ?_⟩
        rw [hdev.1] at hno
        cases hno
      rw [DevRun.next]
      split
      · rename_i heq
        rw [heq] at hkeep
        exact hinv _ hkeep _ _
      · rename_i heq
        rw [heq] at hkeep
        exact hinv _ hkeep _ _
    | false =>
      have hs := hsession hneed
      cases busy with
      | true =>
        rw [DevRun.next, proc, if_pos rfl]
        exact ⟨hstored, hsession⟩
      | false =>
        rcases proc_cases cfg hneed (hstored.symm.trans hneed) hs.noReset hs.noTimeOut clock with
          ⟨-, dev', hproc, hfresh⟩ | ⟨-, dev', hproc, hneed', hstored'⟩ | ⟨-, hproc⟩
        · rw [DevRun.next, hproc]
          refine ⟨?_, fun _ => hfresh.session⟩
          have hneed' : dev'.notNeedProv = dev'.provisioned := by
            rw [hfresh.valInit]
            rfl
          exact hneed'.trans (hfresh.provisioned.trans hfresh.stored.symm)
        · rw [DevRun.next, hproc]
          refine ⟨hneed'.trans hstored'.symm, fun hno => ?_⟩
          dsimp only at hno
          rw [hneed'] at hno
          cases hno
        · rw [DevRun.next, hproc]
          obtain ⟨hneed', hstored'⟩ := switch_same r.dev clock
          exact ⟨hneed'.trans (hstored.trans hstored'.symm), fun _ => hs.switch clock⟩

/-- Every state of a run meets the invariant. -/
theorem runInv_foldl (cfg : DevConfig) {r : DevRun} (h : RunInv cfg r) (es : List DevEvent) :
    RunInv cfg (es.foldl (DevRun.next cfg) r) := by
  induction es generalizing r with
  | nil => exact h
  | cons e es ih => exact ih (h.next e)

theorem begins_fresh {r : DevRun} (h : r.Begins) : Fresh r.dev := ⟨h.fresh, h.needsProv, h.empty⟩

theorem Fresh.needs {dev : FastProvDev} (h : Fresh dev) : dev.notNeedProv = false := by
  rw [h.valInit]
  exact h.provisioned

theorem begins_inv {r : DevRun} (h : r.Begins) : RunInv cfg r := by
  have hfresh := begins_fresh h
  refine ⟨hfresh.needs.trans hfresh.stored.symm, fun _ => ?_⟩
  rw [h.received]
  exact hfresh.session

/-- What a pass installs is right exactly when the address was kept. -/
theorem install_iff {r : DevRun} (h : RunInv cfg r) {busy : Bool} {clock : BitVec 32}
    {info : FastProvNetInfo}
    (hinstall : (r.dev.proc cfg busy clock).2 = some (.installed info)) :
    InstallOk cfg r.received info ↔ AddressKept cfg r.received := by
  obtain ⟨hstored, hsession⟩ := h
  cases hneed : r.dev.notNeedProv with
  | true =>
    exact absurd hinstall
      ((HasNetwork.proc ⟨hneed, hstored.symm.trans hneed⟩ cfg busy clock).2 info)
  | false =>
    have hs := hsession hneed
    have hinfo : r.dev.par.curSts = .complete ∧ info = r.dev.netInfo := by
      cases busy with
      | true => cases hinstall
      | false =>
        rcases proc_cases cfg hneed (hstored.symm.trans hneed) hs.noReset hs.noTimeOut clock with
          ⟨-, dev', hproc, -⟩ | ⟨hdone, dev', hproc, -⟩ | ⟨-, hproc⟩
        · rw [hproc] at hinstall
          cases hinstall
        · rw [hproc] at hinstall
          cases hinstall
          exact ⟨hdone, rfl⟩
        · rw [hproc] at hinstall
          cases hinstall
    obtain ⟨hdone, rfl⟩ := hinfo
    obtain ⟨pre, data, appkey, hlast, hadopts⟩ := hs.later (.inr (.inr hdone))
    obtain ⟨a, ha⟩ := Option.isSome_iff_exists.mp hadopts
    obtain ⟨happkey, hdata, haddress⟩ := hs.data pre data appkey hlast
    obtain ⟨named, hnamed, hset⟩ := hadopts.names
    constructor
    · intro hok
      refine ⟨pre, data, appkey, hlast, ?_⟩
      rw [ha, hok.address, haddress a ha]
    · rintro ⟨pre', data', appkey', hlast', hkept⟩
      obtain ⟨-, -, haddress'⟩ := hs.data pre' data' appkey' hlast'
      refine ⟨⟨pre, data, appkey, hlast, happkey, hdata, named, hnamed, hset⟩, ?_⟩
      -- the node acknowledged an address, so the one it had is some address
      obtain ⟨b, hb⟩ := Option.isSome_iff_exists.mp
        (lastOf_isSome.mpr ⟨named, hlast.mem hnamed, hset⟩)
      rw [hb, haddress' b (hkept.trans hb)]

end

end PirMesh.FastProvDev
