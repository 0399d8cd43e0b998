import Mathlib.Data.List.Basic
import PirMesh.Phone.ProvisioningManager

/-! # Phone — Order and authentication of provisioning

Up to the PDU with the provisioning data an attempt sees seven PDUs in order (`Exchange`), of which
five are the confirmation inputs.  `Follows` says how far an attempt has come when a step's handler
is installed; each handler takes it one step further.  A handler that the bearer stops leaves the
capabilities in the inputs and itself installed, so it can take them again. -/

namespace PirMesh.Provisioner

open Nor (Byte)
open LowerTransport Run

/-! ### The exchange -/

structure Exchange where
  invite : List Byte
  capabilities : SigProvisioningResponse
  start : List Byte
  publicKey : List Byte
  devicePublicKey : SigProvisioningResponse
  confirmation : SigProvisioningResponse
  random : SigProvisioningResponse

namespace Exchange

variable (x : Exchange)

def entries : List Entry :=
  [.sent x.invite, .received x.capabilities, .sent x.start, .sent x.publicKey,
    .received x.devicePublicKey, .received x.confirmation, .received x.random]

/-- The payloads that are authenticated. -/
def inputs : List (List Byte) :=
  [x.invite.tail, x.capabilities.octets, x.start.tail, x.publicKey.tail, x.devicePublicKey.octets]

structure Typed : Prop where
  invite : x.invite.head? = some SigProvisioningPduType.invite.toByte
  capabilities : x.capabilities.type = .capabilities
  start : x.start.head? = some SigProvisioningPduType.start.toByte
  publicKey : x.publicKey.head? = some SigProvisioningPduType.publicKey.toByte
  devicePublicKey : x.devicePublicKey.type = .publicKey
  confirmation : x.confirmation.type = .confirmation
  random : x.random.type = .random

/-- The data of a session that this exchange authenticates. -/
structure Authenticates (cr : ProvisioningCrypto) (attempt : List Entry) (d : SessionData) : Prop
    extends Typed x where
  order : x.entries.Sublist attempt
  secret : d.sharedSecret = cr.getSharedSecret x.devicePublicKey.octets
  noSecret : d.sharedSecret ≠ []
  deviceConfirmation : d.deviceConfirmation = some x.confirmation.octets
  deviceRandom : d.deviceRandom = x.random.octets
  valid : d.validateConfirmation cr = true
  confirmationInputs : d.confirmationInputs = x.inputs.flatten

end Exchange

/-- The PDU is one with provisioning data. -/
def IsData (pdu : List Byte) : Prop := pdu.head? = some SigProvisioningPduType.data.toByte

instance (pdu : List Byte) : Decidable (IsData pdu) := inferInstanceAs (Decidable (_ = _))

theorem not_isData {type : SigProvisioningPduType} (h : type ≠ .data) (octets : List Byte) :
    ¬ IsData (pduData type octets) := by
  intro hdata
  cases type with
  | data => exact h rfl
  | _ => exact absurd hdata (by simp [IsData, pduData, SigProvisioningPduType.toByte])

theorem head?_of_initWithData {data : List Byte} {r : SigProvisioningResponse}
    (h : SigProvisioningResponse.initWithData data = some r) :
    data.head? = some r.type.toByte := by
  cases data with
  | nil => cases h
  | cons b octets =>
    obtain ⟨type, htype, h⟩ := Option.bind_eq_some_iff.mp h
    split at h
    · cases h
    · cases h
      unfold SigProvisioningPduType.ofByte? at htype
      have hb := List.find?_some htype
      exact congrArg some (of_decide_eq_true hb).symm

/-- What the manager does at an event. -/
def Provisioning.does (cr : ProvisioningCrypto) (p : Provisioning) : Event → List Entry
  | .provision source call => (p.manager.provision source call).2.getD []
  | .occurs o => (p.manager.occur cr o).2

theorem not_isData_provision {cr : ProvisioningCrypto} {p : Provisioning}
    {source : ProvisioningSource} {call : ProvisionCall} {pdu : List Byte}
    (h : .sent pdu ∈ p.does cr (.provision source call)) : ¬ IsData pdu := by
  unfold Provisioning.does SigProvisioningManager.provision at h
  dsimp only at h
  split at h
  · cases h
  · cases List.mem_singleton.mp h
    exact not_isData (by decide) _

/-- When the manager sends provisioning data, an exchange of the attempt authenticates it. -/
def AuthenticatedAt (cr : ProvisioningCrypto) (p : Provisioning) (e : Event) : Prop :=
  ∀ pdu, .sent pdu ∈ p.does cr e → IsData pdu →
    ∃ d, (p.next cr e).manager.provisioningData = some d ∧
      ∃ x : Exchange, x.Authenticates cr (p.next cr e).attempt d

/-- The bearer is open when the first step takes capabilities. -/
def BearerOpen (p : Provisioning) : Event → Prop
  | .occurs (.deliver data env) =>
    p.manager.provisionResponseBlock = some .getCapabilities →
      data.head? = some SigProvisioningPduType.capabilities.toByte → env.isOpen = true
  | _ => True

instance (p : Provisioning) (e : Event) : Decidable (BearerOpen p e) :=
  match e with
  | .occurs (.deliver _ _) => inferInstanceAs (Decidable (_ → _ → _))
  | .provision _ _ | .occurs (.timeout _ _) | .occurs (.disconnect _)
  | .occurs .stopMeshConnectComplete => inferInstanceAs (Decidable True)

/-! ### How far an attempt has come -/

namespace Step

/-- The PDUs of the exchange behind which the step waits. -/
def seen : Step → ℕ
  | getCapabilities => 1
  | startAndPublicKey => 4
  | confirmation => 5
  | random => 6
  | encryptedData => 7

theorem awaited_ne_failed (step : Step) : step.awaited ≠ .failed := by
  cases step with
  | _ => exact SigProvisioningPduType.noConfusion

end Step

/-- The part of an exchange behind a step. -/
structure Follows (cr : ProvisioningCrypto) (attempt : List Entry) (d : SessionData) (step : Step)
    (x : Exchange) : Prop where
  typed : x.Typed
  order : (x.entries.take step.seen).Sublist attempt
  inputs : d.confirmationInputs = (x.inputs.take step.seen).flatten
  early : step.seen ≤ 4 → d.sharedSecret = []
  secret : 5 ≤ step.seen →
    d.sharedSecret = cr.getSharedSecret x.devicePublicKey.octets ∧ d.sharedSecret ≠ []
  confirmation : 6 ≤ step.seen → d.deviceConfirmation = some x.confirmation.octets
  random : 7 ≤ step.seen → d.deviceRandom = x.random.octets ∧ d.validateConfirmation cr = true

/-- Where there are provisioning data and a handler, there is a network key, and the handler's part
of the exchange is done. -/
def OnTrack (cr : ProvisioningCrypto) (p : Provisioning) : Prop :=
  ∀ d step, p.manager.provisioningData = some d → p.manager.provisionResponseBlock = some step →
    p.manager.networkKey ≠ none ∧ ∃ x, Follows cr p.attempt d step x

/-! ### What a handler does -/

namespace SigProvisioningManager

variable (m : SigProvisioningManager)

/-- The handler of the last step removes itself. -/
def handlerLeft (step : Step) : Option Step :=
  if step = .encryptedData then none else m.provisionResponseBlock

/-- The handler of a step fails the attempt. -/
def failed (step : Step) : SigProvisioningManager :=
  { (m.cancel step).setStateFail with provisionResponseBlock := m.handlerLeft step }

/-- The handler of a step does not handle the PDU. -/
def ignored (step : Step) : SigProvisioningManager :=
  { m.cancel step with provisionResponseBlock := m.handlerLeft step }

end SigProvisioningManager

/-- What the handler of a step does with the PDU it takes. -/
def Step.handled (cr : ProvisioningCrypto) (env : Surroundings) :
    Step → SigProvisioningManager.ResponseHandler
  | .getCapabilities => SigProvisioningManager.onCapabilities cr env
  | .startAndPublicKey => SigProvisioningManager.onPublicKey cr
  | .confirmation => SigProvisioningManager.onConfirmation
  | .random => SigProvisioningManager.onRandom cr env
  | .encryptedData => SigProvisioningManager.onComplete

/-- The next step begins. -/
structure Advanced (m m' : SigProvisioningManager) (step : Step) : Prop where
  isProvisionning : m'.isProvisionning = m.isProvisionning
  blocks : m'.blocks = m.blocks
  disconnectCallback : m'.disconnectCallback = m.disconnectCallback
  stops : m'.stops = m.stops
  networkKey : m'.networkKey = m.networkKey
  block : m'.provisionResponseBlock = some step
  timer : step ∈ m'.timers

/-- What the handler of a step makes of a manager with provisioning data `d`. -/
inductive Handled (cr : ProvisioningCrypto) (env : Surroundings) (m : SigProvisioningManager)
    (d : SessionData) :
    Step → Option SigProvisioningResponse → SigProvisioningManager × List Entry → Prop where
  | failed {step : Step} {response : Option SigProvisioningResponse}
      (h : ∀ r ∈ response, r.type = step.awaited ∨ r.type = .failed) :
      Handled cr env m d step response (m.failed step, [])
  | ignored {step : Step} {r : SigProvisioningResponse} (h : r.type ≠ step.awaited)
      (h' : r.type ≠ .failed) : Handled cr env m d step (some r) (m.ignored step, [])
  | stopped {r : SigProvisioningResponse} {m' : SigProvisioningManager}
      (h : r.type = .capabilities) (hstop : env.isOpen = false ∨ m.networkKey = none) :
      Handled cr env m d .getCapabilities (some r) (m', [])
  | capabilities {r : SigProvisioningResponse} {m' : SigProvisioningManager} {d' : SessionData}
      {method : AuthenticationMethod} {key : List Byte}
      (h : r.type = .capabilities) (hadv : Advanced m m' .startAndPublicKey)
      (hd : m'.provisioningData = some d') (hsecret : d'.sharedSecret = d.sharedSecret)
      (hinputs : d'.confirmationInputs = d.confirmationInputs ++ r.octets ++
        (startPdu method).tail ++ (publicKeyPdu key).tail) :
      Handled cr env m d .getCapabilities (some r)
        (m', [.sent (startPdu method), .sent (publicKeyPdu key)])
  | publicKey {r : SigProvisioningResponse} {m' : SigProvisioningManager} {d' : SessionData}
      {confirmation : List Byte}
      (h : r.type = .publicKey) (hadv : Advanced m m' .confirmation)
      (hd : m'.provisioningData = some d')
      (hsecret : d'.sharedSecret = if r.octets = [] then d.sharedSecret
        else cr.getSharedSecret r.octets) (hne : d'.sharedSecret ≠ [])
      (hinputs : d'.confirmationInputs = d.confirmationInputs ++ r.octets) :
      Handled cr env m d .startAndPublicKey (some r) (m', [.sent (confirmationPdu confirmation)])
  | confirmation {r : SigProvisioningResponse} {m' : SigProvisioningManager} {random : List Byte}
      (h : r.type = .confirmation) (hadv : Advanced m m' .random)
      (hd : m'.provisioningData = some { d with deviceConfirmation := some r.octets }) :
      Handled cr env m d .confirmation (some r) (m', [.sent (randomPdu random)])
  | random {r : SigProvisioningResponse} {m' : SigProvisioningManager} {data deviceKey : List Byte}
      (h : r.type = .random) (hadv : Advanced m m' .encryptedData)
      (hd : m'.provisioningData =
        some { d with deviceRandom := r.octets, deviceKey := deviceKey })
      (hvalid : { d with deviceRandom := r.octets }.validateConfirmation cr = true) :
      Handled cr env m d .random (some r) (m', [.sent (encryptedDataWithMicPdu data)])
  | complete {r : SigProvisioningResponse} (h : r.type = .complete) :
      Handled cr env m d .encryptedData (some r)
        (m.ignored .encryptedData, (m.cancel .encryptedData).provisionSuccess)

namespace SigProvisioningManager

variable {cr : ProvisioningCrypto} {env : Surroundings} {m : SigProvisioningManager}
  {d : SessionData}

/-- A step that takes its PDU does what `handled` does. -/
theorem onResponse_awaited {step : Step} {r : SigProvisioningResponse}
    (h : r.type = step.awaited)
    (handled : ResponseHandler) :
    m.onResponse step handled (some r) = handled r (m.cancel step) :=
  if_pos h

theorem onResponse_failed {step : Step} {response : Option SigProvisioningResponse}
    (h : ∀ r ∈ response, r.type = .failed)
    (handled : ResponseHandler) :
    m.onResponse step handled response = ((m.cancel step).setStateFail, []) := by
  cases response with
  | none => rfl
  | some r =>
    have htype : r.type = .failed := h r rfl
    have hne : r.type ≠ step.awaited := fun heq => step.awaited_ne_failed (heq.symm.trans htype)
    exact (if_neg hne).trans (if_pos htype)

theorem onResponse_ignored {step : Step} {r : SigProvisioningResponse}
    (h : r.type ≠ step.awaited) (h' : r.type ≠ .failed)
    (handled : ResponseHandler) :
    m.onResponse step handled (some r) = (m.cancel step, []) :=
  (if_neg h).trans (if_neg h')

/-- A handler, with what it does to itself. -/
theorem respond_eq (step : Step) (response : Option SigProvisioningResponse) :
    m.respond cr env step response =
      ({ (m.onResponse step (step.handled cr env) response).1 with
          provisionResponseBlock :=
            (m.onResponse step (step.handled cr env) response).1.handlerLeft step },
        (m.onResponse step (step.handled cr env) response).2) := by
  cases step with
  | _ => rfl

theorem respond_failed {response : Option SigProvisioningResponse}
    (h : ∀ r ∈ response, r.type = .failed) (step : Step) :
    m.respond cr env step response = (m.failed step, []) := by
  rw [respond_eq, onResponse_failed h]
  rfl

theorem respond_ignored {step : Step} {r : SigProvisioningResponse} (h : r.type ≠ step.awaited)
    (h' : r.type ≠ .failed) : m.respond cr env step (some r) = (m.ignored step, []) := by
  rw [respond_eq, onResponse_ignored h h']
  rfl

/-- The timer of a step fails the attempt with the handler that is installed. -/
theorem stepTimeout_cases (cr : ProvisioningCrypto) (env : Surroundings)
    (m : SigProvisioningManager) (step : Step) :
    m.provisionResponseBlock = none ∧ m.stepTimeout cr env step = (m.cancel step, []) ∨
      ∃ step', m.provisionResponseBlock = some step' ∧
        m.stepTimeout cr env step = ((m.cancel step).failed step', []) := by
  unfold stepTimeout callResponseBlock
  cases hb : (m.cancel step).provisionResponseBlock with
  | none => exact .inl ⟨hb, rfl⟩
  | some step' =>
    have hnone : ∀ r ∈ (none : Option SigProvisioningResponse), r.type = .failed :=
      fun _ hr => absurd hr (Option.not_mem_none _)
    exact .inr ⟨step', hb, respond_failed hnone step'⟩

/-- The key exchange starts, or the manager stays as it is. -/
theorem start_cases (cr : ProvisioningCrypto) (env : Surroundings)
    (hd : m.provisioningData = some d) (hstate : m.state = .capabilitiesReceived)
    (oobData : Option (List Byte)) :
    (m.sentStartProvisionPduAndPublicKeyPdu cr env oobData = (m, []) ∧
        (env.isOpen = false ∨ m.networkKey = none)) ∨
      ∃ m' d' method key, m.sentStartProvisionPduAndPublicKeyPdu cr env oobData =
          (m', [.sent (startPdu method), .sent (publicKeyPdu key)]) ∧
        Advanced m m' .startAndPublicKey ∧ m'.provisioningData = some d' ∧
        d'.sharedSecret = d.sharedSecret ∧
        d'.confirmationInputs = d.confirmationInputs ++ (startPdu method).tail ++
          (publicKeyPdu key).tail := by
  unfold sentStartProvisionPduAndPublicKeyPdu
  cases hkey : m.networkKey with
  | none => exact .inl ⟨rfl, .inr rfl⟩
  | some networkKey =>
    dsimp only
    split
    case isTrue h => exact .inl ⟨rfl, .inl (h.resolve_left fun hne => hne hstate)⟩
    case isFalse h =>
      refine .inr ⟨_, ((d.generated cr env networkKey m.unicastAddress oobData).accumulatePduData
          (startPdu _).tail).accumulatePduData (publicKeyPdu _).tail, _, _, rfl,
        ⟨rfl, rfl, rfl, rfl, hkey.symm ▸ rfl, rfl, List.mem_cons_self⟩, ?_, rfl, rfl⟩
      simp only [sendPduAndAccumulate, onData, cancel, await, hd, Option.map_some]

theorem onCapabilities_handled (hd : m.provisioningData = some d) {r : SigProvisioningResponse}
    (h : r.type = .capabilities) :
    Handled cr env m d .getCapabilities (some r)
      (onCapabilities cr env r (m.cancel .getCapabilities)) := by
  have hfail : ∀ r' ∈ some r, r'.type = Step.getCapabilities.awaited ∨ r'.type = .failed := by
    intro r' hr'
    cases hr'
    exact .inl h
  have hstart : ∀ oobData, Handled cr env m d .getCapabilities (some r)
      ((onData { m.cancel .getCapabilities with
          provisioningCapabilities := r.capabilities, state := .capabilitiesReceived }
        (·.accumulatePduData r.octets)).sentStartProvisionPduAndPublicKeyPdu cr env oobData) := by
    intro oobData
    rcases start_cases cr env (d := d.accumulatePduData r.octets)
      (m := onData { m.cancel .getCapabilities with
          provisioningCapabilities := r.capabilities, state := .capabilitiesReceived }
        (·.accumulatePduData r.octets)) (by simp only [onData, cancel, hd, Option.map_some]) rfl
        oobData with
      ⟨heq, hstop⟩ | ⟨m', d', method, key, heq, hadv, hd', hsecret, hinputs⟩
    · rw [heq]
      exact .stopped h hstop
    · rw [heq]
      exact .capabilities h ⟨hadv.1, hadv.2, hadv.3, hadv.4, hadv.5, hadv.6, hadv.7⟩ hd' hsecret
        hinputs
  unfold onCapabilities
  dsimp only
  split
  case isTrue => exact .failed hfail
  case isFalse =>
    split
    case isFalse => exact hstart none
    case isTrue =>
      split
      case h_1 => exact hstart _
      case h_2 =>
        split
        case isTrue => exact hstart none
        case isFalse => exact .failed hfail

theorem confirmation_data (cr : ProvisioningCrypto) (hd : m.provisioningData = some d) :
    (m.sentProvisionConfirmationPdu cr).1.provisioningData =
      some { d with authValue := m.staticOobData.getD (List.replicate 16 0) } := by
  simp only [sentProvisionConfirmationPdu, onData, cancel, await, hd, Option.map_some]

theorem encryptedData_data (cr : ProvisioningCrypto) (env : Surroundings)
    (hd : m.provisioningData = some d) :
    (m.sentProvisionEncryptedDataWithMicPdu cr env).1.provisioningData =
      some { d with deviceKey := d.deviceKeyOfCalculateKeys cr } := by
  simp only [sentProvisionEncryptedDataWithMicPdu, onData, cancel, await, hd, Option.map_some]

theorem onPublicKey_handled (hd : m.provisioningData = some d) {r : SigProvisioningResponse}
    (h : r.type = .publicKey) :
    Handled cr env m d .startAndPublicKey (some r)
      (onPublicKey cr r (m.cancel .startAndPublicKey)) := by
  unfold onPublicKey
  dsimp only
  split
  case isFalse =>
    refine .failed fun r' hr' => ?_
    cases hr'
    exact .inl h
  case isTrue hne =>
    simp only [ofData, onData, cancel, hd, Option.map_some, Option.getD_some] at hne
    refine .publicKey h ⟨rfl, rfl, rfl, rfl, rfl, rfl, List.mem_cons_self⟩
      (confirmation_data cr (d := (d.accumulatePduData
        r.octets).provisionerDidObtainWithDevicePublicKey cr r.octets) ?_) ?_ hne ?_
    · simp only [onData, cancel, hd, Option.map_some]
    · simp only [SessionData.provisionerDidObtainWithDevicePublicKey]
      split
      case isTrue => rfl
      case isFalse => rfl
    · simp only [SessionData.provisionerDidObtainWithDevicePublicKey]
      split
      case isTrue => rfl
      case isFalse => rfl

theorem onConfirmation_handled (hd : m.provisioningData = some d) {r : SigProvisioningResponse}
    (h : r.type = .confirmation) :
    Handled cr env m d .confirmation (some r) (onConfirmation r (m.cancel .confirmation)) := by
  refine .confirmation h ⟨rfl, rfl, rfl, rfl, rfl, rfl, List.mem_cons_self⟩ ?_
  simp only [onData, cancel, await, hd, Option.map_some]

theorem onRandom_handled (hd : m.provisioningData = some d) {r : SigProvisioningResponse}
    (h : r.type = .random) :
    Handled cr env m d .random (some r) (onRandom cr env r (m.cancel .random)) := by
  unfold onRandom
  dsimp only
  split
  case isFalse =>
    refine .failed fun r' hr' => ?_
    cases hr'
    exact .inl h
  case isTrue hvalid =>
    obtain ⟨d', hd', hvalid⟩ := hvalid
    simp only [onData, cancel, hd, Option.map_some, Option.mem_def, Option.some.injEq] at hd'
    subst hd'
    refine .random h ⟨rfl, rfl, rfl, rfl, rfl, rfl, List.mem_cons_self⟩
      (encryptedData_data cr env (d := { d with deviceRandom := r.octets }) ?_) hvalid
    simp only [onData, cancel, hd, Option.map_some]

/-- A response that has not failed is there. -/
theorem exists_of_not_failed {response : Option SigProvisioningResponse}
    (h : ¬ ∀ r ∈ response, r.type = .failed) : ∃ r, response = some r ∧ r.type ≠ .failed := by
  cases response with
  | none => exact absurd (fun r hr => nomatch hr) h
  | some r =>
    refine ⟨r, rfl, fun heq => h fun r' hr' => ?_⟩
    cases hr'
    exact heq

/-- **A handler**, where there are provisioning data. -/
theorem respond_handled (cr : ProvisioningCrypto) (env : Surroundings)
    (hd : m.provisioningData = some d) (step : Step)
    (response : Option SigProvisioningResponse) :
    Handled cr env m d step response (m.respond cr env step response) := by
  by_cases hfailed : ∀ r ∈ response, r.type = .failed
  · rw [respond_failed hfailed]
    exact .failed fun r hr => .inr (hfailed r hr)
  · obtain ⟨r, rfl, hne⟩ := exists_of_not_failed hfailed
    by_cases h : r.type = step.awaited
    case neg =>
      rw [respond_ignored h hne]
      exact .ignored h hne
    case pos =>
      rw [respond_eq, onResponse_awaited h]
      cases step with
      | getCapabilities => exact onCapabilities_handled hd h
      | startAndPublicKey => exact onPublicKey_handled hd h
      | confirmation => exact onConfirmation_handled hd h
      | random => exact onRandom_handled hd h
      | encryptedData => exact .complete h

end SigProvisioningManager

/-! ### Following the exchange -/

namespace Follows

variable {cr : ProvisioningCrypto} {attempt : List Entry} {d : SessionData} {step : Step}
  {x : Exchange}

theorem append (h : Follows cr attempt d step x) (entries : List Entry) :
    Follows cr (attempt ++ entries) d step x :=
  { h with order := h.order.trans (List.sublist_append_left _ _) }

/-- The invite is sent. -/
theorem invited (entries : List Entry) :
    Follows cr (entries ++ [.sent (invitePdu 0)]) (SessionData.alloc.accumulatePduData [0])
      .getCapabilities
      ⟨invitePdu 0, ⟨.capabilities, []⟩, startPdu .noOob, publicKeyPdu [], ⟨.publicKey, []⟩,
        ⟨.confirmation, []⟩, ⟨.random, []⟩⟩ where
  typed := ⟨rfl, rfl, rfl, rfl, rfl, rfl, rfl⟩
  order := List.sublist_append_right _ _
  inputs := rfl
  early := fun _ => rfl
  secret := fun h => absurd h (by decide)
  confirmation := fun h => absurd h (by decide)
  random := fun h => absurd h (by decide)

theorem capabilities (h : Follows cr attempt d .getCapabilities x) {r : SigProvisioningResponse}
    (hr : r.type = .capabilities) {d' : SessionData} {method : AuthenticationMethod}
    {key : List Byte} (hsecret : d'.sharedSecret = d.sharedSecret)
    (hinputs : d'.confirmationInputs = d.confirmationInputs ++ r.octets ++ (startPdu method).tail ++
      (publicKeyPdu key).tail) :
    Follows cr (attempt ++ [.received r, .sent (startPdu method), .sent (publicKeyPdu key)]) d'
      .startAndPublicKey
      { x with capabilities := r, start := startPdu method, publicKey := publicKeyPdu key } where
  typed := { h.typed with capabilities := hr, start := rfl, publicKey := rfl }
  order := h.order.append (List.Sublist.refl _)
  inputs := by
    rw [hinputs, h.inputs]
    simp [Step.seen, Exchange.inputs]
  early := fun _ => hsecret.trans (h.early (by decide))
  secret := fun h => absurd h (by decide)
  confirmation := fun h => absurd h (by decide)
  random := fun h => absurd h (by decide)

theorem publicKey (h : Follows cr attempt d .startAndPublicKey x) {r : SigProvisioningResponse}
    (hr : r.type = .publicKey) {d' : SessionData} {entries : List Entry}
    (hsecret : d'.sharedSecret =
      if r.octets = [] then d.sharedSecret else cr.getSharedSecret r.octets)
    (hne : d'.sharedSecret ≠ [])
    (hinputs : d'.confirmationInputs = d.confirmationInputs ++ r.octets) :
    Follows cr (attempt ++ .received r :: entries) d' .confirmation
      { x with devicePublicKey := r } where
  typed := { h.typed with devicePublicKey := hr }
  order := h.order.append (List.singleton_sublist.mpr List.mem_cons_self)
  inputs := by
    rw [hinputs, h.inputs]
    simp [Step.seen, Exchange.inputs]
  early := fun h => absurd h (by decide)
  secret := by
    intro _
    refine ⟨?_, hne⟩
    by_cases hr : r.octets = []
    · rw [if_pos hr] at hsecret
      exact absurd (hsecret.trans (h.early (by decide))) hne
    · rwa [if_neg hr] at hsecret
  confirmation := fun h => absurd h (by decide)
  random := fun h => absurd h (by decide)

theorem confirmation' (h : Follows cr attempt d .confirmation x) {r : SigProvisioningResponse}
    (hr : r.type = .confirmation) {entries : List Entry} :
    Follows cr (attempt ++ .received r :: entries)
      { d with deviceConfirmation := some r.octets } .random { x with confirmation := r } where
  typed := { h.typed with confirmation := hr }
  order := h.order.append (List.singleton_sublist.mpr List.mem_cons_self)
  inputs := h.inputs
  early := fun h => absurd h (by decide)
  secret := fun _ => h.secret (by decide)
  confirmation := fun _ => rfl
  random := fun h => absurd h (by decide)

theorem random' (h : Follows cr attempt d .random x) {r : SigProvisioningResponse}
    (hr : r.type = .random) {entries : List Entry} {deviceKey : List Byte}
    (hvalid : { d with deviceRandom := r.octets }.validateConfirmation cr = true) :
    Follows cr (attempt ++ .received r :: entries)
      { d with deviceRandom := r.octets, deviceKey := deviceKey } .encryptedData
      { x with random := r } where
  typed := { h.typed with random := hr }
  order := h.order.append (List.singleton_sublist.mpr List.mem_cons_self)
  inputs := h.inputs
  early := fun h => absurd h (by decide)
  secret := fun _ => h.secret (by decide)
  confirmation := fun _ => h.confirmation (by decide)
  random := fun _ => ⟨rfl, hvalid⟩

/-- At the end of the exchange. -/
theorem authenticates (h : Follows cr attempt d .encryptedData x) :
    x.Authenticates cr attempt d :=
  { h.typed with
    order := h.order
    secret := (h.secret (by decide)).1
    noSecret := (h.secret (by decide)).2
    deviceConfirmation := h.confirmation (by decide)
    deviceRandom := (h.random (by decide)).1
    valid := (h.random (by decide)).2
    confirmationInputs := h.inputs }

end Follows

/-! ### Runs -/

namespace SigProvisioningManager

variable {cr : ProvisioningCrypto} {env : Surroundings} {m : SigProvisioningManager}

theorem onData_none (hd : m.provisioningData = none) (f : SessionData → SessionData) :
    (m.onData f).provisioningData = none := by
  rw [onData, hd]
  rfl

/-- No provisioning data are made or sent. -/
structure NoData (result : SigProvisioningManager × List Entry) : Prop where
  data : result.1.provisioningData = none
  sent : ∀ pdu, .sent pdu ∈ result.2 → ¬ IsData pdu

theorem NoData.quiet {m : SigProvisioningManager} (hd : m.provisioningData = none) :
    NoData (m, []) :=
  ⟨hd, fun _ h => nomatch h⟩

theorem noData_start (hd : m.provisioningData = none) (oobData : Option (List Byte)) :
    NoData (m.sentStartProvisionPduAndPublicKeyPdu cr env oobData) := by
  unfold sentStartProvisionPduAndPublicKeyPdu
  split
  · exact .quiet hd
  · split
    · exact .quiet hd
    · refine ⟨onData_none (onData_none (onData_none hd _) _) _, fun pdu h => ?_⟩
      rcases List.mem_pair.mp h with heq | heq
      · cases heq
        exact not_isData (by decide) _
      · cases heq
        exact not_isData (by decide) _

theorem noData_onCapabilities (cr : ProvisioningCrypto) (env : Surroundings)
    (hd : m.provisioningData = none) (r : SigProvisioningResponse) :
    NoData (onCapabilities cr env r m) := by
  have hd' := onData_none (m := { m with
    provisioningCapabilities := r.capabilities, state := .capabilitiesReceived }) hd
    (·.accumulatePduData r.octets)
  unfold onCapabilities
  dsimp only
  split
  · exact .quiet rfl
  · split
    · split
      · exact noData_start hd' _
      · split
        · exact noData_start hd' _
        · exact .quiet rfl
    · exact noData_start hd' _

theorem noData_onPublicKey (cr : ProvisioningCrypto) (hd : m.provisioningData = none)
    (r : SigProvisioningResponse) :
    NoData (onPublicKey cr r m) := by
  unfold onPublicKey
  dsimp only
  rw [if_neg]
  · exact .quiet rfl
  · rw [ofData, onData_none hd]
    exact fun hne => hne rfl

theorem noData_onRandom (cr : ProvisioningCrypto) (env : Surroundings)
    (hd : m.provisioningData = none) (r : SigProvisioningResponse) :
    NoData (onRandom cr env r m) := by
  unfold onRandom
  dsimp only
  rw [if_neg]
  · exact .quiet rfl
  · intro h
    obtain ⟨d, hd', -⟩ := h
    rw [onData_none hd] at hd'
    cases hd'

theorem not_sent_provisionSuccess {pdu : List Byte} : .sent pdu ∉ m.provisionSuccess := by
  intro h
  cases List.mem_cons.mp h with
  | inl heq => cases heq
  | inr hmem =>
    obtain ⟨call, -, heq⟩ := List.mem_map.mp hmem
    cases heq

/-- Without provisioning data no handler makes any. -/
theorem noData_respond (cr : ProvisioningCrypto) (env : Surroundings)
    (hd : m.provisioningData = none) (step : Step) (response : Option SigProvisioningResponse) :
    NoData (m.respond cr env step response) := by
  by_cases hfailed : ∀ r ∈ response, r.type = .failed
  · rw [respond_failed hfailed]
    exact .quiet rfl
  · obtain ⟨r, rfl, hne⟩ := exists_of_not_failed hfailed
    by_cases h : r.type = step.awaited
    case neg =>
      rw [respond_ignored h hne]
      exact .quiet hd
    case pos =>
      rw [respond_eq, onResponse_awaited h]
      cases step with
      | getCapabilities =>
        have hno := noData_onCapabilities cr env (m := m.cancel .getCapabilities) hd r
        exact ⟨hno.data, hno.sent⟩
      | startAndPublicKey =>
        have hno := noData_onPublicKey cr (m := m.cancel .startAndPublicKey) hd r
        exact ⟨hno.data, hno.sent⟩
      | confirmation =>
        refine ⟨onData_none (m := m.cancel .confirmation) hd _, fun pdu hsent => ?_⟩
        cases List.mem_singleton.mp hsent
        exact not_isData (by decide) _
      | random =>
        have hno := noData_onRandom cr env (m := m.cancel .random) hd r
        exact ⟨hno.data, hno.sent⟩
      | encryptedData => exact ⟨hd, fun pdu hsent => absurd hsent not_sent_provisionSuccess⟩

end SigProvisioningManager

namespace OnTrack

variable {cr : ProvisioningCrypto} {p : Provisioning}

/-- The data stay, the handler stays or goes. -/
theorem keep (h : OnTrack cr p) {m' : SigProvisioningManager}
    (hd : m'.provisioningData = p.manager.provisioningData)
    (hb : ∀ step, m'.provisionResponseBlock = some step →
      p.manager.provisionResponseBlock = some step)
    (hkey : m'.networkKey = p.manager.networkKey) (entries : List Entry) :
    OnTrack cr ⟨m', p.attempt ++ entries⟩ := by
  intro d step hd' hb'
  obtain ⟨hnet, x, hx⟩ := h d step (hd.symm.trans hd') (hb step hb')
  exact ⟨hkey ▸ hnet, x, hx.append entries⟩

theorem of_none {m : SigProvisioningManager} (hd : m.provisioningData = none)
    (attempt : List Entry) : OnTrack cr ⟨m, attempt⟩ := by
  intro d step hd' _
  rw [hd] at hd'
  cases hd'

theorem of_advanced {m m' : SigProvisioningManager} {attempt : List Entry} {d : SessionData}
    {step : Step} (hkey : m.networkKey ≠ none) (hadv : Advanced m m' step)
    (hd : m'.provisioningData = some d) {x : Exchange} (hx : Follows cr attempt d step x) :
    OnTrack cr ⟨m', attempt⟩ := by
  intro d' step' hd' hb'
  cases hd.symm.trans hd'
  cases hadv.block.symm.trans hb'
  exact ⟨hadv.networkKey ▸ hkey, x, hx⟩

/-- The handler of a step stays what it is, or there is none. -/
theorem handlerLeft_eq_some {m : SigProvisioningManager} {step step' : Step}
    (h : m.handlerLeft step = some step') : m.provisionResponseBlock = some step' := by
  unfold SigProvisioningManager.handlerLeft at h
  split at h
  · cases h
  · exact h

theorem ignored (h : OnTrack cr p) (step : Step) (entries : List Entry) :
    OnTrack cr ⟨p.manager.ignored step, p.attempt ++ entries⟩ := by
  have hd : (p.manager.ignored step).provisioningData = p.manager.provisioningData := rfl
  exact h.keep hd (fun _ hb => handlerLeft_eq_some hb) rfl entries

/-- A handler with its data and the PDU it takes. -/
theorem respond (h : OnTrack cr p) {env : Surroundings} {d : SessionData} {step : Step}
    (hd : p.manager.provisioningData = some d)
    (hb : p.manager.provisionResponseBlock = some step) {r : SigProvisioningResponse}
    (hopen : step = .getCapabilities → r.type = .capabilities → env.isOpen = true) :
    OnTrack cr ⟨(p.manager.respond cr env step (some r)).1,
        p.attempt ++ .received r :: (p.manager.respond cr env step (some r)).2⟩ ∧
      ∀ pdu, .sent pdu ∈ (p.manager.respond cr env step (some r)).2 → IsData pdu →
        (p.manager.respond cr env step (some r)).1.provisionResponseBlock =
          some .encryptedData ∧
        (p.manager.respond cr env step (some r)).1.provisioningData ≠ none := by
  obtain ⟨hkey, x, hx⟩ := h d step hd hb
  have hres := SigProvisioningManager.respond_handled cr env hd step (some r)
  generalize p.manager.respond cr env step (some r) = result at hres
  cases hres with
  | failed _ => exact ⟨of_none rfl _, fun _ hsent => nomatch hsent⟩
  | ignored _ _ => exact ⟨h.ignored _ _, fun _ hsent => nomatch hsent⟩
  | stopped hr hstop =>
    cases hstop with
    | inl hclosed => exact absurd (hclosed.symm.trans (hopen rfl hr)) Bool.false_ne_true
    | inr hnone => exact absurd hnone hkey
  | capabilities hr hadv hd' hsecret hinputs =>
    refine ⟨of_advanced hkey hadv hd' (hx.capabilities hr hsecret hinputs),
      fun pdu hsent hdata => ?_⟩
    rcases List.mem_pair.mp hsent with heq | heq
    · cases heq
      exact absurd hdata (not_isData (by decide) _)
    · cases heq
      exact absurd hdata (not_isData (by decide) _)
  | publicKey hr hadv hd' hsecret hne hinputs =>
    refine ⟨of_advanced hkey hadv hd' (hx.publicKey hr hsecret hne hinputs),
      fun pdu hsent hdata => ?_⟩
    cases List.mem_singleton.mp hsent
    exact absurd hdata (not_isData (by decide) _)
  | confirmation hr hadv hd' =>
    refine ⟨of_advanced hkey hadv hd' (hx.confirmation' hr), fun pdu hsent hdata => ?_⟩
    cases List.mem_singleton.mp hsent
    exact absurd hdata (not_isData (by decide) _)
  | random hr hadv hd' hvalid =>
    refine ⟨of_advanced hkey hadv hd' (hx.random' hr hvalid), fun _ _ _ => ⟨hadv.block, ?_⟩⟩
    rw [hd']
    exact Option.some_ne_none _
  | complete hr =>
    exact ⟨h.ignored _ _, fun pdu hsent =>
      absurd hsent SigProvisioningManager.not_sent_provisionSuccess⟩

/-- The start of an attempt. -/
theorem start (h : OnTrack cr p) (source : ProvisioningSource) (call : ProvisionCall) :
    OnTrack cr (p.start source call) := by
  unfold Provisioning.start SigProvisioningManager.provision
  dsimp only
  split
  · rw [Option.getD_none, ← List.append_nil p.attempt]
    exact h.keep rfl (fun _ => id) rfl []
  · intro d step hd hb
    cases hd
    cases hb
    exact ⟨Option.some_ne_none _, _, .invited []⟩

/-- The handler that is installed takes a response. -/
theorem callResponseBlock (h : OnTrack cr p) (env : Surroundings) (r : SigProvisioningResponse)
    (hopen : p.manager.provisionResponseBlock = some .getCapabilities → r.type = .capabilities →
      env.isOpen = true) :
    OnTrack cr ⟨(p.manager.callResponseBlock cr env (some r)).1,
        p.attempt ++ .received r :: (p.manager.callResponseBlock cr env (some r)).2⟩ ∧
      ∀ pdu, .sent pdu ∈ (p.manager.callResponseBlock cr env (some r)).2 → IsData pdu →
        (p.manager.callResponseBlock cr env (some r)).1.provisionResponseBlock =
            some .encryptedData ∧
          (p.manager.callResponseBlock cr env (some r)).1.provisioningData ≠ none := by
  unfold SigProvisioningManager.callResponseBlock
  cases hb : p.manager.provisionResponseBlock with
  | none => exact ⟨h.keep rfl (fun _ => id) rfl _, fun _ hsent => nomatch hsent⟩
  | some step =>
    dsimp only
    cases hd : p.manager.provisioningData with
    | none =>
      have hno := SigProvisioningManager.noData_respond cr env hd step (some r)
      exact ⟨of_none hno.data _, fun pdu hsent hdata => absurd hdata (hno.sent pdu hsent)⟩
    | some d => exact h.respond hd hb fun hstep => hopen (hstep ▸ hb)

/-- An event keeps the manager on track, and it sends provisioning data at the end only. -/
theorem occur (h : OnTrack cr p) (o : Occurrence) (hopen : BearerOpen p (.occurs o)) :
    OnTrack cr (p.occur cr o) ∧
      ∀ pdu, .sent pdu ∈ (p.manager.occur cr o).2 → IsData pdu →
        (p.occur cr o).manager.provisionResponseBlock = some .encryptedData ∧
          (p.occur cr o).manager.provisioningData ≠ none := by
  cases o with
  | deliver data env =>
    unfold Provisioning.occur SigProvisioningManager.occur SigProvisioningManager.didDeliverData
    dsimp only
    split
    case h_1 => exact ⟨h.keep rfl (fun _ => id) rfl _, fun _ hsent => nomatch hsent⟩
    case h_2 r hr =>
      obtain ⟨hinit, -⟩ := Option.filter_eq_some_iff.mp hr
      have hcall := h.callResponseBlock env r fun hb htype =>
        hopen hb (htype ▸ head?_of_initWithData hinit)
      refine ⟨hcall.1, fun pdu hsent => hcall.2 pdu ?_⟩
      exact (List.mem_cons.mp hsent).resolve_left Entry.noConfusion
  | timeout step env =>
    unfold Provisioning.occur SigProvisioningManager.occur
    dsimp only
    rcases SigProvisioningManager.stepTimeout_cases cr env p.manager step with
      ⟨-, heq⟩ | ⟨step', -, heq⟩
    · rw [heq]
      exact ⟨h.keep rfl (fun _ => id) rfl _, fun _ hsent => nomatch hsent⟩
    · rw [heq]
      exact ⟨of_none rfl _, fun _ hsent => nomatch hsent⟩
  | disconnect isCurrent =>
    unfold Provisioning.occur SigProvisioningManager.occur SigProvisioningManager.disconnected
    dsimp only
    split
    · exact ⟨h.keep rfl (fun _ => id) rfl _, fun _ hsent => nomatch hsent⟩
    · split
      · exact ⟨h.keep rfl (fun _ => id) rfl _, fun _ hsent =>
          nomatch List.mem_singleton.mp hsent⟩
      · exact ⟨h.keep rfl (fun _ => id) rfl _, fun _ hsent => nomatch hsent⟩
  | stopMeshConnectComplete =>
    unfold Provisioning.occur SigProvisioningManager.occur
      SigProvisioningManager.stopMeshConnectComplete
    dsimp only
    split
    · exact ⟨h.keep rfl (fun _ => id) rfl _, fun _ hsent => nomatch hsent⟩
    · refine ⟨h.keep rfl (fun _ => id) rfl _, fun pdu hsent => ?_⟩
      obtain ⟨call, -, heq⟩ := List.mem_map.mp hsent
      cases heq

end OnTrack

theorem onTrack_initial (cr : ProvisioningCrypto) : OnTrack cr .initial :=
  .of_none rfl _

theorem OnTrack.next {cr : ProvisioningCrypto} {p : Provisioning} (h : OnTrack cr p) (e : Event)
    (hopen : BearerOpen p e) : OnTrack cr (p.next cr e) := by
  cases e with
  | provision source call => exact h.start source call
  | occurs o => exact (h.occur o hopen).1

/-- At the event that sends them, the provisioning data are authenticated. -/
theorem OnTrack.authenticatedAt {cr : ProvisioningCrypto} {p : Provisioning} (h : OnTrack cr p)
    (e : Event) (hopen : BearerOpen p e) : AuthenticatedAt cr p e := by
  intro pdu hsent hdata
  cases e with
  | provision source call => exact absurd hdata (not_isData_provision hsent)
  | occurs o =>
    obtain ⟨htrack, hend⟩ := h.occur o hopen
    obtain ⟨hb, hne⟩ := hend pdu hsent hdata
    obtain ⟨d, hd⟩ := Option.ne_none_iff_exists'.mp hne
    obtain ⟨-, x, hx⟩ := htrack d .encryptedData hd hb
    exact ⟨d, hd, x, hx.authenticates⟩

/-- **Order and authentication.**  However attempts, PDUs and timers follow one another, when the
manager sends provisioning data, an exchange of the same attempt authenticates them. -/
theorem provisioningData_authenticated (cr : ProvisioningCrypto) {es : List Event} {e : Event}
    (hopen : GoodRun (Provisioning.next cr) BearerOpen .initial (es ++ [e])) :
    AuthenticatedAt cr (es.foldl (Provisioning.next cr) .initial) e := by
  obtain ⟨hrun, hlast⟩ := goodRun_append.mp hopen
  have htrack : OnTrack cr (es.foldl (Provisioning.next cr) .initial) :=
    hrun.inv (onTrack_initial cr) fun _ e hp hopen => hp.next e hopen
  exact htrack.authenticatedAt e hlast.1

/-! ### A bearer that is not open -/

/-- Primitives that look at every octet. -/
def sumCrypto : ProvisioningCrypto where
  toOpenSSLHelper := plainSsl
  calculateSalt data := [data.foldl (· + ·) 0]
  calculateK1 n salt p := n ++ salt ++ p
  calculateCMAC data key := List.replicate 16 ((data ++ key).foldl (· + ·) 0)
  publicKeyData := List.replicate 64 1
  getSharedSecret devicePublicKey := devicePublicKey.take 32

def phoneSource : ProvisioningSource where
  netKeys := [⟨⟨some (List.replicate 32 'A'), none, .normalOperation, none⟩, 0⟩]
  setNetkeyModel := none
  ivIndex := List.replicate 8 '0'

def provisionEvent : Event :=
  .provision phoneSource ⟨2, List.replicate 16 0xAA, 0, none⟩

def delivered (isOpen : Bool) (data : List Byte) : Event :=
  .occurs (.deliver data ⟨isOpen, false, phoneSource, List.replicate 16 3⟩)

def capabilitiesData : List Byte := [1, 1, 0, 1, 0, 0, 0, 0, 0, 0, 0, 0]

def deviceKeyData : List Byte := 3 :: List.replicate 64 2

/-- The confirmation of a device for the random of zeros. -/
def confirmationData (inputs : List Byte) : List Byte :=
  5 :: sumCrypto.calculateCMAC (List.replicate 32 0)
    (sumCrypto.calculateK1 (List.replicate 32 2) (sumCrypto.calculateSalt inputs)
      [0x70, 0x72, 0x63, 0x6B])

/-- The session of a device that saw the given PDUs of capabilities. -/
def session (capabilities : List Event) (copies : ℕ) : List Event :=
  provisionEvent :: capabilities ++
    [delivered true deviceKeyData,
      delivered true (confirmationData (0 ::
        (List.replicate copies capabilitiesData.tail).flatten ++ (startPdu .noOob).tail ++
          (publicKeyPdu sumCrypto.publicKeyData).tail ++ deviceKeyData.tail))]

def randomEvent : Event := delivered true (6 :: List.replicate 16 0)

/-- The run with one PDU of capabilities. -/
def openSession : List Event := session [delivered true capabilitiesData] 1

/-- The run where the bearer is open for the second PDU of capabilities only. -/
def stoppedSession : List Event :=
  session [delivered false capabilitiesData, delivered true capabilitiesData] 2

def Entry.SendsData : Entry → Prop
  | .sent pdu => IsData pdu
  | _ => False

instance (entry : Entry) : Decidable entry.SendsData :=
  match entry with
  | .sent pdu => inferInstanceAs (Decidable (IsData pdu))
  | .received _ | .nodeAdded _ _ _ | .success _ | .fail _ => inferInstanceAs (Decidable False)

/-- The size of a PDU of the exchange up to the keys. -/
def Entry.SizeOk : Entry → Prop
  | .sent pdu => (pdu.head? = some SigProvisioningPduType.invite.toByte → pdu.length = 2) ∧
      (pdu.head? = some SigProvisioningPduType.start.toByte → pdu.length = 6) ∧
      (pdu.head? = some SigProvisioningPduType.publicKey.toByte → pdu.length = 65)
  | .received r => (r.type = .capabilities → r.octets.length = 11) ∧
      (r.type = .publicKey → r.octets.length = 64)
  | _ => True

instance (entry : Entry) : Decidable entry.SizeOk :=
  match entry with
  | .sent _ => inferInstanceAs (Decidable ((_ → _) ∧ (_ → _) ∧ (_ → _)))
  | .received _ => inferInstanceAs (Decidable ((_ → _) ∧ (_ → _)))
  | .nodeAdded _ _ _ | .success _ | .fail _ => inferInstanceAs (Decidable True)

/-- Five inputs of 145 octets together. -/
theorem Exchange.length_inputs {x : Exchange} {attempt : List Entry}
    (htyped : x.Typed) (horder : x.entries.Sublist attempt)
    (hsize : ∀ entry ∈ attempt, entry.SizeOk) : x.inputs.flatten.length = 145 := by
  have hmem : ∀ entry ∈ x.entries, entry.SizeOk := fun entry h => hsize _ (horder.subset h)
  have hinvite := (hmem (.sent x.invite) (by simp [entries])).1 htyped.invite
  have hcapabilities := (hmem (.received x.capabilities) (by simp [entries])).1 htyped.capabilities
  have hstart := (hmem (.sent x.start) (by simp [entries])).2.1 htyped.start
  have hkey := (hmem (.sent x.publicKey) (by simp [entries])).2.2 htyped.publicKey
  have hdevice :=
    (hmem (.received x.devicePublicKey) (by simp [entries])).2 htyped.devicePublicKey
  simp [inputs, hinvite, hcapabilities, hstart, hkey, hdevice]

theorem provisioningData_authenticated_sample :
    (∃ entry ∈ (openSession.foldl (Provisioning.next sumCrypto) .initial).does sumCrypto
        randomEvent, entry.SendsData) ∧
      AuthenticatedAt sumCrypto (openSession.foldl (Provisioning.next sumCrypto) .initial)
        randomEvent :=
  ⟨by decide +kernel, provisioningData_authenticated sumCrypto (by decide +kernel)⟩

/-- With the first PDU of capabilities stopped the inputs hold two. -/
theorem provisioningData_authenticated_refuted :
    ¬ ∀ (cr : ProvisioningCrypto) (es : List Event) (e : Event),
      AuthenticatedAt cr (es.foldl (Provisioning.next cr) .initial) e := by
  intro h
  have hsends : ∃ entry ∈ (stoppedSession.foldl (Provisioning.next sumCrypto) .initial).does
      sumCrypto randomEvent, entry.SendsData := by
    decide +kernel
  obtain ⟨entry, hentry, hdata⟩ := hsends
  cases entry with
  | sent pdu =>
    obtain ⟨d, hd, x, hx⟩ := h sumCrypto stoppedSession randomEvent pdu hentry hdata
    have hlength : ∀ d' ∈ ((stoppedSession.foldl (Provisioning.next sumCrypto) .initial).next
        sumCrypto randomEvent).manager.provisioningData, d'.confirmationInputs.length = 156 := by
      decide +kernel
    have hsize := x.length_inputs hx.toTyped hx.order (by decide +kernel)
    rw [← hx.confirmationInputs, hlength d hd] at hsize
    exact absurd hsize (by decide)
  | _ => exact hdata

end PirMesh.Provisioner
