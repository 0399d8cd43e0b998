import Mathlib.Data.BitVec
import Mathlib.Logic.Function.Basic
import PirMesh.Library.Run
import PirMesh.Phone.SegmentQueue

/-! # Phone — Command list (`SigMeshLib.m`, `SDKLibCommand.m`, `BackgroundTimer.m`)

A command is kept in a list until its result is known.  The list is entered by a block on the
message queue and left by blocks on the main queue.  A command has one timer: a new one takes the
place of the old, which is invalidated when it is released. -/

namespace PirMesh.MeshLib

open LowerTransport

/-- One-shot timers of `retrySendSDKLibCommand:`. -/
inductive RetryTimer where
  | timeout | retry
  deriving DecidableEq, Repr

/-- What a command is sent with.  `isAcknowledged` is that of its message. -/
structure CommandParams where
  opCode : BitVec 32
  responseOpCode : Option (BitVec 32)
  isAcknowledged : Bool
  destination : BitVec 16
  responseMaxCount : ℕ
  retryCount : ℕ
  resultCallback : Bool
  responseAllMessageCallBack : Bool
  deriving DecidableEq, Repr

structure SDKLibCommand extends CommandParams where
  hadRetryCount : ℕ
  hadReceiveAllResponse : Bool
  responseSourceArray : List (BitVec 16)
  retryTimer : Option RetryTimer
  deriving DecidableEq, Repr

/-- After `init`. -/
def CommandParams.command (params : CommandParams) : SDKLibCommand := ⟨params, 0, false, [], none⟩

/-- The class of a received message. -/
inductive MessageClass where
  | config | generic | unknown | other
  deriving DecidableEq, Repr

structure ReceivedMessage where
  kind : MessageClass
  opCode : BitVec 32
  deriving DecidableEq, Repr

namespace SDKLibCommand

variable (c : SDKLibCommand)

def isFrom (source : BitVec 16) : Bool :=
  isUnicastAddress c.destination = false ∨ c.destination = source

/-- The condition of the loops of `getCommandWithReceiveMessage:fromSource:`. -/
def answeredBy (message : ReceivedMessage) (source : BitVec 16) : Bool :=
  match message.kind with
  | .config => c.responseOpCode = some message.opCode ∧ c.isFrom source
  | .generic => c.isAcknowledged ∧ c.responseOpCode = some message.opCode ∧ c.isFrom source
  | .unknown => (c.responseOpCode = some message.opCode ∨
      c.responseOpCode = some ((message.opCode >>> 16) &&& 0xFF)) ∧ c.isFrom source
  | .other => false

/-- A message that is acknowledged waits for one response at least. -/
def withResponse : SDKLibCommand :=
  if c.isAcknowledged ∧ c.responseMaxCount = 0 then { c with responseMaxCount := 1 } else c

def isKept : Bool :=
  c.responseAllMessageCallBack ∨ c.resultCallback ∨ c.retryCount > 0 ∧ c.responseMaxCount > 0

/-- `retrySendSDKLibCommand:`. -/
def retrySend : SDKLibCommand :=
  { c with retryTimer := some (if c.hadRetryCount ≥ c.retryCount then .timeout else .retry) }

/-- A source that was not counted yet, of a node or of a vendor message. -/
def addSource (opCode : BitVec 32) (source : BitVec 16) (knownNode : Bool) : SDKLibCommand :=
  if c.responseSourceArray.contains source = false ∧ (knownNode ∨ 0xFFFF < opCode) then
    { c with responseSourceArray := c.responseSourceArray ++ [source] }
  else c

end SDKLibCommand

/-- Blocks on the main queue. -/
inductive MainBlock where
  /-- Of a response: the command is finished and its result is YES. -/
  | finishAndResult (id : ℕ)
  | finish (id : ℕ)
  | result (id : ℕ)
  deriving DecidableEq, Repr

def MainBlock.id : MainBlock → ℕ
  | finishAndResult id | finish id | result id => id

inductive LogEntry where
  /-- The block on the message queue sent the message. -/
  | sent (id : ℕ)
  /-- A timer sent the message. -/
  | resent (id : ℕ)
  | received (message : ReceivedMessage) (source : BitVec 16)
  | result (id : ℕ) (isResponseAll : Bool)
  | cancelled (id : ℕ)
  deriving DecidableEq, Repr

/-- Commands are numbered as they are sent.  `queue` holds those whose block on the message queue
did not run yet. -/
structure SigMeshLib where
  command : ℕ → SDKLibCommand
  count : ℕ
  commands : List ℕ
  queue : List ℕ
  main : List MainBlock
  log : List LogEntry

namespace SigMeshLib

def initial : SigMeshLib :=
  ⟨fun _ => CommandParams.command ⟨0, none, false, 0, 0, 0, false, false⟩, 0, [], [], [], []⟩

variable (s : SigMeshLib)

def modify (id : ℕ) (f : SDKLibCommand → SDKLibCommand) : SigMeshLib :=
  { s with command := Function.update s.command id (f (s.command id)) }

def write (entries : List LogEntry) : SigMeshLib := { s with log := s.log ++ entries }

def dispatchMain (blocks : List MainBlock) : SigMeshLib := { s with main := s.main ++ blocks }

/-! ### Finding a command -/

def getCommandWithReceiveMessage (message : ReceivedMessage) (source : BitVec 16) : Option ℕ :=
  s.commands.find? fun id => (s.command id).answeredBy message source

/-- Also `getCommandWithSendMessageOpCode:`. -/
def getCommandWithSendMessage (opCode : BitVec 32) : Option ℕ :=
  s.commands.find? fun id => decide ((s.command id).opCode = opCode)

/-! ### Finishing a command -/

def commandResponseFinish (id : ℕ) : SigMeshLib :=
  { s.modify id fun c => { c with retryTimer := none, retryCount := 0 } with
    commands := s.commands.filter (· ≠ id) }

def commandTimeout (id : ℕ) : SigMeshLib :=
  (s.commandResponseFinish id).write
    (if (s.command id).resultCallback ∧ (s.command id).hadReceiveAllResponse = false then
      [.result id false] else [])

def handleResponseMaxCommands : SigMeshLib :=
  { s with commands := s.commands.filter fun id =>
      decide ((s.command id).responseMaxCount ≠ 0 ∧ (s.command id).responseMaxCount ≠ 0xFF ∧
        (s.command id).hadReceiveAllResponse = false) }

/-! ### Events -/

/-- `sendMeshMessage:…` and `sendConfigMessage:…`, behind their checks. -/
def send (params : CommandParams) : SigMeshLib :=
  let s := s.handleResponseMaxCommands
  { s with
    command := Function.update s.command s.count params.command
    count := s.count + 1
    queue := s.queue ++ [s.count] }

/-- The next block of the message queue. -/
def runQueue : SigMeshLib :=
  match s.queue with
  | [] => s
  | id :: rest =>
    let s := { s with queue := rest }.modify id (·.withResponse)
    { s with commands := if (s.command id).isKept then s.commands ++ [id] else s.commands }.write
      [.sent id]

/-- The next block of the main queue. -/
def runMain : SigMeshLib :=
  match s.main with
  | [] => s
  | .finishAndResult id :: rest =>
    ({ s with main := rest }.commandResponseFinish id).write
      (if (s.command id).resultCallback then [.result id true] else [])
  | .finish id :: rest => { s with main := rest }.commandResponseFinish id
  | .result id :: rest => { s with main := rest }.write [.result id true]

def didReceiveMessage (message : ReceivedMessage) (source : BitVec 16) (knownNode : Bool) :
    SigMeshLib :=
  let s := s.write [.received message source]
  match s.getCommandWithReceiveMessage message source with
  | none => s
  | some id =>
    let s := s.modify id (·.addSource message.opCode source knownNode)
    if (s.command id).responseMaxCount ≠ 0 then
      if (s.command id).responseSourceArray.length = (s.command id).responseMaxCount then
        s.dispatchMain [.finishAndResult id]
      else s
    else s.modify id fun c => { c with hadReceiveAllResponse := true, retryTimer := none }

def didSendMessage (opCode : BitVec 32) (toLocalElement : Bool) : SigMeshLib :=
  match s.getCommandWithSendMessage opCode with
  | none => s
  | some id =>
    if (s.command id).retryCount > 0 then s.modify id (·.retrySend)
    else if (s.command id).responseMaxCount = 0 ∨ toLocalElement then
      s.dispatchMain (.finish id :: if (s.command id).resultCallback then [.result id] else [])
    else s

def failedToSendMessage (opCode : BitVec 32) : SigMeshLib :=
  match s.getCommandWithSendMessage opCode with
  | none => s
  | some id =>
    if (s.command id).retryCount > 0 then s.modify id (·.retrySend)
    else
      (s.modify id fun c => { c with hadReceiveAllResponse := true }).write
        (if (s.command id).resultCallback then [.result id false] else [])

def receiveNetworkPdu (isSegmented : Bool) : SigMeshLib :=
  match s.commands with
  | [] => s
  | id :: _ => if isSegmented then s.modify id (·.retrySend) else s

/-- The timer of a command fires, and is invalid then. -/
def fire (id : ℕ) : SigMeshLib :=
  let fired := s.modify id fun c => { c with retryTimer := none }
  match (s.command id).retryTimer with
  | none => s
  | some .timeout => fired.commandTimeout id
  | some .retry =>
    if (s.command id).hadRetryCount < (s.command id).retryCount then
      (fired.modify id fun c => { c with hadRetryCount := c.hadRetryCount + 1 }).write [.resent id]
    else fired

/-- The handle of a command has its opcode. -/
def cancelSigMessageHandle (id : ℕ) : SigMeshLib :=
  let s' := match s.getCommandWithSendMessage (s.command id).opCode with
    | none => s
    | some found => s.commandResponseFinish found
  s'.write [.cancelled id]

end SigMeshLib

inductive Event where
  | send (params : CommandParams)
  | runQueue
  | runMain
  | receive (message : ReceivedMessage) (source : BitVec 16) (knownNode : Bool)
  | didSend (opCode : BitVec 32) (toLocalElement : Bool)
  | failedToSend (opCode : BitVec 32)
  | networkPdu (isSegmented : Bool)
  | fire (id : ℕ)
  | cancel (id : ℕ)
  deriving DecidableEq, Repr

def SigMeshLib.next (s : SigMeshLib) : Event → SigMeshLib
  | .send params => s.send params
  | .runQueue => s.runQueue
  | .runMain => s.runMain
  | .receive message source knownNode => s.didReceiveMessage message source knownNode
  | .didSend opCode toLocalElement => s.didSendMessage opCode toLocalElement
  | .failedToSend opCode => s.failedToSendMessage opCode
  | .networkPdu isSegmented => s.receiveNetworkPdu isSegmented
  | .fire id => s.fire id
  | .cancel id => s.cancelSigMessageHandle id

end PirMesh.MeshLib
