import PirMesh.Library.Run
import PirMesh.Prov.Gatt

/-! # Prov — What a device is provisioned by

The session of a history is the PDUs from the last invite on.  The state of the
reception says which PDUs the session has (`ProvInv`), so that whatever is installed
comes from six PDUs in the right order, the fifth of which opens the commitment in the
fourth.  The data in the sixth are installed whether or not their MIC is right. -/

namespace PirMesh

open Nor Reassembly

variable (C : ProvCrypto)

/-! ### Sessions -/

def sessionStep (l : List (List Byte)) : ProvEvent → List (List Byte)
  | .pdu p => if provType p = proInvite then [p] else l ++ [p]
  | .mainLoop _ => l
  | .linkReset => []

/-- The PDUs since the last invite of the link. -/
def session (es : List ProvEvent) : List (List Byte) := es.foldl sessionStep []

/-- The PDUs of a whole session. -/
structure ProvSession where
  invite : List Byte
  start : List Byte
  pubKey : List Byte
  confirm : List Byte
  random : List Byte
  data : List Byte

/-- The types of a session's PDUs in their order. -/
def provOrder : List Byte := [proInvite, proStart, proPubKey, proConfirm, proRandom, proData]

namespace ProvSession

variable (x : ProvSession) (s : ProvNode)

def pdus : List (List Byte) := [x.invite, x.start, x.pubKey, x.confirm, x.random, x.data]

/-- The octets both sides have sent when the keys are exchanged. -/
def transcript : List Byte :=
  x.invite.getD 1 0 :: capaOctets s.provOob.capa ++ provBody x.start 5 ++ provBody x.pubKey 64 ++
    s.publicKey.toList

def secret : List Byte := C.dhkey s.privateKey.toList (provBody x.pubKey 64)

/-- The random is the one the confirmation is a value of. -/
def Opens (auth : List Byte) : Prop :=
  C.confirmation (x.transcript s) (x.secret C s) (provBody x.random 16) auth =
    provBody x.confirm 16

/-- The data decrypt under the session key. -/
def MicValid : Prop :=
  let key := C.sessionKey (x.transcript s) (x.secret C s) (provBody x.random 16) s.devRandom
  (C.msgDec key.1 (key.2.drop 3) (provBody x.data 33)).1 = 0

end ProvSession

/-- What the data PDU `d`, received in state `s` after `es`, must be to be installed;
`s₀` is the device before. -/
def AuthenticatedBy (s₀ : ProvNode) (es : List ProvEvent) (s : ProvNode) (d : List Byte) : Prop :=
  ∃ x : ProvSession, session (es ++ [.pdu d]) = x.pdus ∧ x.pdus.map provType = provOrder ∧
    x.Opens C s₀ s.devAuth ∧ x.MicValid C s₀

/-- The data PDU `d` is taken, with an address a node can have. -/
def TakesData (s : ProvNode) (d : List Byte) : Prop :=
  s.provisonRcvState = .devRandom ∧ provType d = proData ∧ BitVec.ofNat 8 d.length = 34 ∧
    isUnicastAdr (netInfoUnicast ((decProvData C s d).2.take 25)) = true

/-! ### The handlers -/

variable {C} {s s₀ : ProvNode} {p : List Byte}

theorem dispatchStartCmdReliable_capa (o : MeshProvOob) :
    (dispatchStartCmdReliable p o).1.capa = o.capa := by
  have hcapa : (getPubkeyOobInfoByCapa o).capa = o.capa := by
    unfold getPubkeyOobInfoByCapa
    repeat' split
    all_goals rfl
  unfold dispatchStartCmdReliable
  split
  · rfl
  · exact hcapa

/-- The variables a session does not change. -/
structure ProvFixed (s₀ s : ProvNode) : Prop where
  publicKey : s.publicKey = s₀.publicKey
  privateKey : s.privateKey = s₀.privateKey
  devRandom : s.devRandom = s₀.devRandom
  capa : s.provOob.capa = s₀.provOob.capa
  tick : s.tickCheckComplete = 0

/-- `l` is the first `n` PDUs of the session `x`. -/
def Begun (n : Nat) (x : ProvSession) (l : List (List Byte)) : Prop :=
  l = x.pdus.take n ∧ l.map provType = provOrder.take n

/-- What the state of the reception says of the PDUs `l` of the session. -/
def Progress (C : ProvCrypto) (s₀ s : ProvNode) (l : List (List Byte)) : Prop :=
  match s.provisonRcvState with
  | .devCapa => ∃ x, Begun 1 x l ∧
      read s.devInput 0 12 = x.invite.getD 1 0 :: capaOctets s₀.provOob.capa
  | .proStart => ∃ x, Begun 2 x l ∧
      read s.devInput 0 17 =
        x.invite.getD 1 0 :: capaOctets s₀.provOob.capa ++ provBody x.start 5
  | .devPubKey => ∃ x, Begun 3 x l ∧ read s.devInput 0 145 = x.transcript s₀ ∧
      (provBody x.pubKey 64).length = 64
  | .devConfirm => ∃ x, Begun 4 x l ∧ read s.devInput 0 145 = x.transcript s₀ ∧
      s.devEdch = x.secret C s₀ ∧ s.devProComfirm = provBody x.confirm 16
  | .devRandom => ∃ x, Begun 5 x l ∧ read s.devInput 0 145 = x.transcript s₀ ∧
      s.devEdch = x.secret C s₀ ∧ s.proRandom = provBody x.random 16 ∧ x.Opens C s₀ s.devAuth
  | .linkUnprovision | .proSuc | .other => True

/-- The device after `es`. -/
structure ProvInv (C : ProvCrypto) (s₀ : ProvNode) (es : List ProvEvent) (s : ProvNode) :
    Prop where
  fixed : ProvFixed s₀ s
  progress : Progress C s₀ s (session es)

/-- What a handler leaves: the fixed variables, and the state of the PDUs `l`. -/
def Leaves (C : ProvCrypto) (s₀ : ProvNode) (l : List (List Byte)) (out : ProvNode × ProvOut) :
    Prop :=
  ProvFixed s₀ out.1 ∧ Progress C s₀ out.1 l

theorem length_provBody {n : Nat} (h : n + 1 ≤ p.length) : (provBody p n).length = n := by
  rw [provBody, List.length_take, List.length_drop]
  omega

theorem ProvFixed.reset (h : ProvFixed s₀ s) : ProvFixed s₀ (meshProvisionParaReset s) :=
  ⟨h.publicKey, h.privateKey, h.devRandom, h.capa, h.tick⟩

theorem leaves_fail (h : ProvFixed s₀ s) (errCode : Byte) (l : List (List Byte)) :
    Leaves C s₀ l (provFailCmdProc s errCode) :=
  ⟨h.reset, trivial⟩

theorem leaves_invite (h : ProvFixed s₀ s) (hp : provType p = proInvite) :
    Leaves C s₀ [p] (provisioneeGattRcvInviteProc s p) := by
  unfold provisioneeGattRcvInviteProc
  dsimp only
  split
  · exact ⟨h.reset, trivial⟩
  · refine ⟨⟨h.publicKey, h.privateKey, h.devRandom, h.capa, h.tick⟩, ?_⟩
    refine ⟨⟨p, [], [], [], [], []⟩, ⟨rfl, by simp [hp, provOrder]⟩, ?_⟩
    have hfirst : read (copy s.devInput 0 [p.getD 1 0]) 0 1 = [p.getD 1 0] :=
      read_copy_append s.devInput 0 [p.getD 1 0]
    have hall := read_copy_append (copy s.devInput 0 [p.getD 1 0]) 1 (capaOctets s.provOob.capa)
    rw [hfirst] at hall
    rw [← h.capa]
    exact hall

theorem leaves_start {l : List (List Byte)} (h : ProvFixed s₀ s) (hp : provType p = proStart)
    (hlen : 6 ≤ p.length) {x : ProvSession} (hx : Begun 1 x l)
    (hread : read s.devInput 0 12 = x.invite.getD 1 0 :: capaOctets s₀.provOob.capa) :
    Leaves C s₀ (l ++ [p]) (rcvStart s p) := by
  have hoob : ProvFixed s₀ { s with provOob := (dispatchStartCmdReliable p s.provOob).1 } :=
    ⟨h.publicKey, h.privateKey, h.devRandom, (dispatchStartCmdReliable_capa _).trans h.capa, h.tick⟩
  unfold rcvStart
  dsimp only
  split
  · refine ⟨⟨hoob.publicKey, hoob.privateKey, hoob.devRandom, hoob.capa, hoob.tick⟩, ?_⟩
    refine ⟨{ x with start := p }, ⟨?_, ?_⟩, ?_⟩
    · rw [hx.1]
      rfl
    · rw [List.map_append, hx.2]
      simp [hp, provOrder]
    · have hall := read_copy_append s.devInput 12 (provBody p 5)
      rw [length_provBody hlen, hread] at hall
      exact hall
  · exact leaves_fail hoob _ _

theorem leaves_pubKey {l : List (List Byte)} (h : ProvFixed s₀ s) (hp : provType p = proPubKey)
    (hlen : 65 ≤ p.length) {x : ProvSession} (hx : Begun 2 x l)
    (hread : read s.devInput 0 17 =
      x.invite.getD 1 0 :: capaOctets s₀.provOob.capa ++ provBody x.start 5) :
    Leaves C s₀ (l ++ [p]) (rcvPubKey C s p) := by
  unfold rcvPubKey
  split
  · exact leaves_fail h _ _
  · refine ⟨⟨h.publicKey, h.privateKey, h.devRandom, h.capa, h.tick⟩, ?_⟩
    refine ⟨{ x with pubKey := p }, ⟨?_, ?_⟩, ?_, length_provBody hlen⟩
    · rw [hx.1]
      rfl
    · rw [List.map_append, hx.2]
      simp [hp, provOrder]
    · have hkey := read_copy_append s.devInput 17 (provBody p 64)
      have hall := read_copy_append (copy s.devInput 17 (provBody p 64)) 81 s.publicKey.toList
      rw [length_provBody hlen, hread] at hkey
      rw [Vector.length_toList, hkey] at hall
      rw [ProvSession.transcript, ← h.publicKey]
      exact hall

/-- The octets of the public key in `dev_input`. -/
theorem read_pubKey {x : ProvSession} (hread : read s.devInput 0 145 = x.transcript s₀)
    (hkey : (provBody x.pubKey 64).length = 64) :
    read s.devInput 0x11 64 = provBody x.pubKey 64 := by
  have hpart := read_part s.devInput 0 17 64 145 (by decide)
  rw [hread, Nat.zero_add] at hpart
  have hhead :
      (x.invite.getD 1 0 :: capaOctets s₀.provOob.capa ++ provBody x.start 5).length = 17 := by
    have hlen := congrArg List.length hread
    rw [ProvSession.transcript, length_read, List.length_append, List.length_append, hkey,
      Vector.length_toList] at hlen
    omega
  rw [hpart, ProvSession.transcript, List.append_assoc, List.drop_left' hhead,
    List.take_left' hkey]

theorem meshNodeOobAuthData_eq (s : ProvNode) :
    ∃ auth flag, (meshNodeOobAuthData s).1 =
      { s with devAuth := auth, provAuthEnFlag := flag } := by
  unfold meshNodeOobAuthData
  repeat' split
  all_goals exact ⟨_, _, rfl⟩

theorem leaves_confirm {l : List (List Byte)} (h : ProvFixed s₀ s) (hp : provType p = proConfirm)
    {x : ProvSession} (hx : Begun 3 x l) (hread : read s.devInput 0 145 = x.transcript s₀)
    (hkey : (provBody x.pubKey 64).length = 64) :
    Leaves C s₀ (l ++ [p]) (rcvConfirm C s p) := by
  obtain ⟨auth, flag, heq⟩ := meshNodeOobAuthData_eq s
  unfold rcvConfirm
  dsimp only
  rw [heq]
  split
  · exact ⟨⟨h.1, h.2, h.3, h.4, h.5⟩, trivial⟩
  · refine ⟨⟨h.1, h.2, h.3, h.4, h.5⟩, { x with confirm := p }, ⟨?_, ?_⟩, hread, ?_, rfl⟩
    · rw [hx.1]
      rfl
    · rw [List.map_append, hx.2]
      simp [hp, provOrder]
    · have hpub := read_pubKey hread hkey
      exact congrArg₂ (fun k b => C.dhkey (Vector.toList k) b) h.privateKey hpub

theorem leaves_random {l : List (List Byte)} (h : ProvFixed s₀ s) (hp : provType p = proRandom)
    {x : ProvSession} (hx : Begun 4 x l) (hread : read s.devInput 0 145 = x.transcript s₀)
    (hedch : s.devEdch = x.secret C s₀) (hconfirm : s.devProComfirm = provBody x.confirm 16) :
    Leaves C s₀ (l ++ [p]) (rcvRandom C s p) := by
  unfold rcvRandom
  dsimp only
  split
  · exact leaves_fail (s := { s with proRandom := provBody p 16 }) ⟨h.1, h.2, h.3, h.4, h.5⟩ _ _
  · rename_i hopen
    refine ⟨⟨h.1, h.2, h.3, h.4, h.5⟩, { x with random := p }, ⟨?_, ?_⟩, hread, hedch, rfl, ?_⟩
    · rw [hx.1]
      rfl
    · rw [List.map_append, hx.2]
      simp [hp, provOrder]
    · rw [Decidable.not_not, hread, hedch, hconfirm] at hopen
      exact hopen

theorem leaves_data (h : ProvFixed s₀ s) (l : List (List Byte)) :
    Leaves C s₀ l (rcvData C s p) := by
  unfold rcvData meshProvisionParHandle
  dsimp only
  split <;> exact ⟨⟨h.1, h.2, h.3, h.4, h.5⟩, trivial⟩

/-- Every other PDU ends the session. -/
theorem leaves_pdu {l : List (List Byte)} (h : ProvFixed s₀ s) (hl : Progress C s₀ s l) :
    Leaves C s₀ (sessionStep l (.pdu p)) (dispatchPbGatt C s p) := by
  unfold dispatchPbGatt
  split
  · exact leaves_fail h _ _
  split
  · exact leaves_fail h _ _
  rename_i hcheck
  have hlen : getMeshProStrLen (provType p) = BitVec.ofNat 8 p.length := by
    simpa [provCalcCmdLenChk] using hcheck
  have hle (n : Nat) (ht : (getMeshProStrLen (provType p)).toNat = n) : n ≤ p.length := by
    rw [hlen, BitVec.toNat_ofNat] at ht
    exact ht ▸ Nat.mod_le _ _
  have happend (t : Byte) (hp : provType p = t) (ht : t ≠ proInvite) :
      sessionStep l (.pdu p) = l ++ [p] := if_neg (hp ▸ ht)
  -- the state is how far the session came; a PDU that is not the next one fails it
  cases hstate : s.provisonRcvState with
  | linkUnprovision =>
    dsimp only
    split
    · rename_i hp
      rw [sessionStep, if_pos hp]
      exact leaves_invite h hp
    · exact ⟨h, by simp [Progress, hstate]⟩
  | devCapa =>
    dsimp only
    simp only [Progress, hstate] at hl
    obtain ⟨x, hx, hread⟩ := hl
    split
    · rename_i hp
      rw [happend _ hp (by decide)]
      exact leaves_start h hp (hle 6 (by rw [hp]; rfl)) hx hread
    · exact leaves_fail h _ _
  | proStart =>
    dsimp only
    simp only [Progress, hstate] at hl
    obtain ⟨x, hx, hread⟩ := hl
    split
    · rename_i hp
      rw [happend _ hp (by decide)]
      exact leaves_pubKey h hp (hle 65 (by rw [hp]; rfl)) hx hread
    · exact leaves_fail h _ _
  | devPubKey =>
    dsimp only
    simp only [Progress, hstate] at hl
    obtain ⟨x, hx, hread, hkey⟩ := hl
    split
    · rename_i hp
      rw [happend _ hp (by decide)]
      exact leaves_confirm h hp hx hread hkey
    · exact leaves_fail h _ _
  | devConfirm =>
    dsimp only
    simp only [Progress, hstate] at hl
    obtain ⟨x, hx, hread, hedch, hconfirm⟩ := hl
    split
    · rename_i hp
      rw [happend _ hp (by decide)]
      exact leaves_random h hp hx hread hedch hconfirm
    · exact leaves_fail h _ _
  | devRandom =>
    dsimp only
    split
    · exact leaves_data h _
    · exact leaves_fail h _ _
  | proSuc => exact ⟨h, by simp [Progress, hstate]⟩
  | other => exact ⟨h, by simp [Progress, hstate]⟩

/-! ### What is installed -/

theorem installed_rcvData : (rcvData C s p).2.installed ≠ none ↔
    isUnicastAdr (netInfoUnicast ((decProvData C s p).2.take 25)) = true := by
  unfold rcvData meshProvisionParHandle
  dsimp only
  split
  · rename_i h
    exact ⟨fun _ => h, fun _ => by simp⟩
  · rename_i h
    exact ⟨fun hne => absurd rfl hne, fun h' => absurd h' h⟩

/-- The state a handler that installs nothing is called in. -/
theorem installed_before (h : s.provisonRcvState ≠ .devRandom) :
    (dispatchPbGatt C s p).2.installed = none := by
  unfold dispatchPbGatt
  split
  · rfl
  split
  · rfl
  cases hstate : s.provisonRcvState with
  | linkUnprovision =>
    dsimp only
    unfold provisioneeGattRcvInviteProc
    dsimp only
    repeat' split
    all_goals rfl
  | devCapa =>
    dsimp only
    unfold rcvStart
    dsimp only
    repeat' split
    all_goals rfl
  | proStart =>
    dsimp only
    unfold rcvPubKey
    repeat' split
    all_goals rfl
  | devPubKey =>
    dsimp only
    unfold rcvConfirm
    dsimp only
    repeat' split
    all_goals rfl
  | devConfirm =>
    dsimp only
    unfold rcvRandom
    dsimp only
    repeat' split
    all_goals rfl
  | devRandom => exact absurd hstate h
  | proSuc => rfl
  | other => rfl

/-- Nothing but the data of a session is installed by a PDU. -/
theorem installed_pdu : (dispatchPbGatt C s p).2.installed ≠ none ↔ TakesData C s p := by
  constructor
  · intro hne
    have hstate : s.provisonRcvState = .devRandom := by
      by_contra h
      exact hne (installed_before h)
    unfold dispatchPbGatt at hne
    split at hne
    · exact absurd rfl hne
    split at hne
    · exact absurd rfl hne
    rename_i hcheck
    rw [hstate] at hne
    dsimp only at hne
    split at hne
    · rename_i hp
      have hlen : getMeshProStrLen proData = BitVec.ofNat 8 p.length := by
        simpa [provCalcCmdLenChk, hp] using hcheck
      exact ⟨hstate, hp, hlen.symm, installed_rcvData.mp hne⟩
    · exact absurd rfl hne
  · rintro ⟨hstate, hp, hlen, hadr⟩
    have hvalid : provCmdIsValid proData = true := rfl
    have hcheck : provCalcCmdLenChk proData (BitVec.ofNat 8 p.length) = true := by
      rw [hlen]
      rfl
    rw [dispatchPbGatt, hp, hvalid, hcheck, hstate]
    exact installed_rcvData.mpr hadr

/-- The main loop does nothing while no tick is set. -/
theorem mainLoop_eq (h : s.tickCheckComplete = 0) (exceeded : Bool) :
    waitAndCheckCompleteState s exceeded = (s, {}) := by
  have hself : (if s.gattMode = .proxy then { s with tickCheckComplete := 0 } else s) = s := by
    split
    · rw [← h]
    · rfl
  simp only [waitAndCheckCompleteState, hself, h, ne_eq, not_true_eq_false, false_and, if_false]

/-! ### Runs -/

/-- No session is on, and the completion of none is pending. -/
def ProvNode.Unprovisioned (s : ProvNode) : Prop :=
  s.provisonRcvState = .linkUnprovision ∧ s.tickCheckComplete = 0

theorem session_append (es : List ProvEvent) (e : ProvEvent) :
    session (es ++ [e]) = sessionStep (session es) e := by
  rw [session, List.foldl_append]
  rfl

theorem ProvInv.step {es : List ProvEvent} (h : ProvInv C s₀ es s) (e : ProvEvent) :
    ProvInv C s₀ (es ++ [e]) (provStep C s e).1 := by
  cases e with
  | pdu p =>
    obtain ⟨hfixed, hprogress⟩ := leaves_pdu (p := p) h.fixed h.progress
    exact ⟨hfixed, by rw [session_append]; exact hprogress⟩
  | mainLoop exceeded =>
    rw [provStep, mainLoop_eq h.fixed.tick]
    exact ⟨h.fixed, by rw [session_append]; exact h.progress⟩
  | linkReset => exact ⟨h.fixed.reset, trivial⟩

theorem provInv_run (h : s₀.Unprovisioned) (es : List ProvEvent) :
    ProvInv C s₀ es (provRun C s₀ es) := by
  refine Run.foldl_hist (P := ProvInv C s₀) ⟨⟨rfl, rfl, rfl, rfl, h.2⟩, ?_⟩
    (fun _ _ e hinv => hinv.step e) es
  simp [Progress, h.1]

theorem ProvSession.pdus_injective : Function.Injective ProvSession.pdus := by
  intro x y h
  cases x
  cases y
  simpa [pdus] using h

/-- Data that are taken come from a whole session; what is left is their MIC. -/
theorem ProvInv.authenticatedBy_iff {es : List ProvEvent} (h : ProvInv C s₀ es s)
    (hp : TakesData C s p) : AuthenticatedBy C s₀ es s p ↔ (decProvData C s p).1 = 0 := by
  have hprogress := h.progress
  simp only [Progress, hp.1] at hprogress
  obtain ⟨x, hx, hread, hedch, hrandom, hopens⟩ := hprogress
  have hnot : proData ≠ proInvite := by decide
  have hsession : session (es ++ [.pdu p]) = { x with data := p }.pdus := by
    rw [session_append, sessionStep, if_neg (hp.2.1 ▸ hnot), hx.1]
    rfl
  have horder : ({ x with data := p } : ProvSession).pdus.map provType = provOrder := by
    rw [← hsession, session_append, sessionStep, if_neg (hp.2.1 ▸ hnot), List.map_append, hx.2]
    simp [hp.2.1, provOrder]
  have hmic : ({ x with data := p } : ProvSession).MicValid C s₀ ↔ (decProvData C s p).1 = 0 := by
    rw [decProvData, hread, hedch, hrandom, h.fixed.devRandom]
    rfl
  constructor
  · rintro ⟨y, hy, -, -, hvalid⟩
    rw [hsession] at hy
    rw [← ProvSession.pdus_injective hy] at hvalid
    exact hmic.mp hvalid
  · intro herr
    exact ⟨_, hsession, horder, hopens, hmic.mpr herr⟩

/-- Functions in the place of the library's: the confirmation is a value of the random and
the authentication octets, the MIC is fixed octets. -/
def plainCrypto : ProvCrypto where
  eccValidPublicKey _ := true
  dhkey _ key := key.take 32
  confirmation _ _ random auth := random.zipWith (· ^^^ ·) auth
  salt _ random devRandom := random.zipWith (· ^^^ ·) devRandom
  sessionKey _ edch random _ := (edch.take 16, random)
  devKey salt _ := salt
  msgDec _ _ dat := (if dat.drop 25 = List.replicate 8 0x5A then 0 else -6, dat.take 25)

/-- A device without out-of-band data. -/
def freshDevice : ProvNode where
  provisonRcvState := .linkUnprovision
  certBaseEn := false
  gattMode := .provision
  proNetInfo := List.replicate 25 0
  tickCheckComplete := 0
  devInput _ := 0
  devProComfirm := List.replicate 16 0
  devComfirm := List.replicate 16 0
  devEdch := List.replicate 32 0
  devRandom := List.replicate 16 0xC3
  proRandom := List.replicate 16 0
  devAuth := List.replicate 16 0
  devKey := List.replicate 16 0
  provOob := ⟨⟨1, 1, 0, 0, 0, 0, 0, 0⟩, ⟨0, 0, 0, 0, 0⟩, 0, 0, 0, 0, 0⟩
  provAuthVal := 0
  provAuthEnFlag := false
  publicKey := Vector.replicate 64 0x11
  privateKey := Vector.replicate 32 0x22

/-- A session up to the random. -/
def sessionPre : List ProvEvent :=
  [.pdu [proInvite, 0], .pdu [proStart, 0, 0, 0, 0, 0], .pdu (proPubKey :: List.replicate 64 0x33),
    .mainLoop true, .pdu (proConfirm :: List.replicate 16 0x44),
    .pdu (proRandom :: List.replicate 16 0x44)]

/-- Data for the unicast address 2, with the octets of a MIC. -/
def dataPdu (mic : Byte) : List Byte :=
  proData :: List.replicate 16 0x66 ++ [0, 0, 0, 0, 0, 0, 0, 0, 2] ++ List.replicate 8 mic

end PirMesh
