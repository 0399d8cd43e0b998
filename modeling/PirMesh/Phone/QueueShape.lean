import Mathlib.Data.List.Pairwise
import PirMesh.Library.Run
import PirMesh.Phone.SegmentQueue

/-! # Phone — What the sender's runs keep

Whatever happens, a queue is in the order of its objects, only its head can have been started, and
the segments under a SeqZero are those of a started message without the ones that an
acknowledgment has named since (`Shape`). -/

namespace PirMesh

namespace LowerTransport

/-! ### Rounds -/

namespace SigUpperTransportModel

variable (model : SigUpperTransportModel)

/-- The array of a message with some segments acknowledged. -/
def masked (acked : Nat → Bool) : List (Option OutgoingSegment) :=
  model.segments.mapIdx fun i seg => if acked i then none else some seg

/-- The segments that are not acknowledged. -/
def notAcked (acked : Nat → Bool) : List OutgoingSegment := (model.masked acked).filterMap id

variable {model} {acked acked' : Nat → Bool}

theorem length_segments : model.segments.length = model.pdu.count := by
  simp [segments, SigUpperTransportPdu.segments]

theorem segments_map_some : model.segments.map some = model.masked fun _ => false := by
  refine List.ext_getElem? fun i => ?_
  simp [masked]

theorem masked_congr (h : ∀ i < model.pdu.count, acked i = acked' i) :
    model.masked acked = model.masked acked' := by
  refine List.ext_getElem? fun i => ?_
  rw [masked, masked, List.getElem?_mapIdx, List.getElem?_mapIdx]
  by_cases hi : i < model.segments.length
  · rw [h i (length_segments ▸ hi)]
  · rw [List.getElem?_eq_none (Nat.le_of_not_lt hi)]
    rfl

/-- An acknowledgment clears its bits. -/
theorem mapIdx_masked (received : Nat → Bool) :
    ((model.masked acked).mapIdx fun i seg => if received i then none else seg) =
      model.masked fun i => acked i || received i := by
  refine List.ext_getElem? fun i => ?_
  simp only [masked, List.getElem?_mapIdx, Option.map_map]
  refine congrArg (fun f => Option.map f model.segments[i]?) (funext fun seg => ?_)
  by_cases hacked : acked i = true
  · simp [hacked]
  · simp [hacked]

theorem mem_masked {seg : OutgoingSegment} (h : some seg ∈ model.masked acked) :
    seg ∈ model.segments := by
  obtain ⟨i, hi, hseg⟩ := List.mem_mapIdx.mp h
  split at hseg
  · cases hseg
  · cases hseg
    exact List.getElem_mem hi

theorem of_mem_segments {seg : OutgoingSegment} (h : seg ∈ model.segments) :
    seg.number = model.number ∧ seg.segment.destination = model.pdu.destination := by
  obtain ⟨segment, hsegment, rfl⟩ := List.mem_map.mp h
  obtain ⟨offset, -, rfl⟩ := List.mem_map.mp hsegment
  exact ⟨rfl, rfl⟩

theorem of_mem_notAcked {seg : OutgoingSegment} (h : seg ∈ model.notAcked acked) :
    seg.number = model.number ∧ seg.segment.destination = model.pdu.destination := by
  obtain ⟨o, ho, hseg⟩ := List.mem_filterMap.mp h
  exact of_mem_segments (mem_masked ((show o = some seg from hseg) ▸ ho))

/-- Where nothing is left, every segment is acknowledged. -/
theorem acked_of_notAcked_nil (h : model.notAcked acked = []) {i : Nat}
    (hi : i < model.pdu.count) : acked i = true := by
  by_contra hacked
  have hi' : i < model.segments.length := length_segments ▸ hi
  have hmem : some model.segments[i] ∈ model.masked acked :=
    List.mem_mapIdx.mpr ⟨i, hi', by simp [hacked]⟩
  have hleft : model.segments[i] ∈ model.notAcked acked :=
    List.mem_filterMap.mpr ⟨_, hmem, rfl⟩
  rw [h] at hleft
  exact absurd hleft List.not_mem_nil

end SigUpperTransportModel

theorem hasMore_eq (array : List (Option OutgoingSegment)) :
    segmentsArrayHasMore array = (firstNotAcknowledgedFrom array).isSome := by
  unfold segmentsArrayHasMore firstNotAcknowledgedFrom
  induction array with
  | nil => rfl
  | cons o array ih =>
    cases o with
    | none => simpa using ih
    | some seg => simp

theorem roundAckExpected_eq {segments : List OutgoingSegment} {destination : BitVec 16}
    (hne : segments ≠ []) (h : ∀ seg ∈ segments, seg.segment.destination = destination) :
    Sender.roundAckExpected segments = isUnicastAddress destination := by
  unfold Sender.roundAckExpected
  rw [List.getLast?_eq_some_getLast hne]
  exact congrArg isUnicastAddress (h _ (List.getLast_mem hne))

/-! ### The log -/

namespace Output

def enqueued? : Output → Option SigUpperTransportModel
  | .enqueued model => some model
  | _ => none

def started? : Output → Option SigUpperTransportModel
  | .started model => some model
  | _ => none

end Output

def enqueuedModels (log : List Output) : List SigUpperTransportModel :=
  log.filterMap Output.enqueued?

def startedModels (log : List Output) : List SigUpperTransportModel :=
  log.filterMap Output.started?

/-- A relation on acknowledgments and messages: which of them count. -/
abbrev Counts := SigSegmentAcknowledgmentMessage → SigUpperTransportModel → Bool

/-- The segments of a message acknowledged since it started. -/
def ackStep (counts : Counts) (model : SigUpperTransportModel) (acked : Nat → Bool) :
    Output → Nat → Bool
  | .started m => if m = model then fun _ => false else acked
  | .acknowledged ack =>
    if ack.sequenceZero = model.pdu.sequenceZero ∧ counts ack model then
      fun i => acked i || ack.isSegmentReceived i
    else acked
  | _ => acked

def ackedBy (counts : Counts) (model : SigUpperTransportModel) (log : List Output) : Nat → Bool :=
  log.foldl (ackStep counts model) fun _ => false

theorem ackedBy_append (counts : Counts) (model : SigUpperTransportModel) (log : List Output)
    (o : Output) : ackedBy counts model (log ++ [o]) =
      ackStep counts model (ackedBy counts model log) o := by
  unfold ackedBy
  rw [List.foldl_append]
  rfl

/-- An acknowledged segment has its acknowledgment. -/
theorem exists_ack_of_ackedBy {counts : Counts} {model : SigUpperTransportModel}
    {log : List Output} {i : Nat} (h : ackedBy counts model log i = true) :
    ∃ ack, .acknowledged ack ∈ log ∧ ack.sequenceZero = model.pdu.sequenceZero ∧
      counts ack model = true ∧ ack.isSegmentReceived i = true := by
  induction log using List.reverseRecOn with
  | nil => cases h
  | append_singleton log o ih =>
    rw [ackedBy_append] at h
    have hold : ackedBy counts model log i = true → ∃ ack, .acknowledged ack ∈ log ++ [o] ∧
        ack.sequenceZero = model.pdu.sequenceZero ∧ counts ack model = true ∧
        ack.isSegmentReceived i = true := by
      intro h
      obtain ⟨ack, hmem, hack⟩ := ih h
      exact ⟨ack, List.mem_append_left _ hmem, hack⟩
    cases o with
    | started m =>
      change (if m = model then fun _ => false else ackedBy counts model log) i = true at h
      split_ifs at h with hm
      exact hold h
    | acknowledged ack =>
      change (if ack.sequenceZero = model.pdu.sequenceZero ∧ counts ack model then
        fun i => ackedBy counts model log i || ack.isSegmentReceived i
        else ackedBy counts model log) i = true at h
      split_ifs at h with hack
      · rcases Bool.or_eq_true_iff.mp h with hbefore | hnow
        · exact hold hbefore
        · exact ⟨ack, List.mem_append_right _ List.mem_cons_self, hack.1, hack.2, hnow⟩
      · exact hold h
    | enqueued | round | delivered | cancelled => exact hold h

/-- **What an output says** behind the log before it. -/
def Entry (counts : Counts) (log : List Output) : Output → Prop
  | .enqueued model => ∀ m ∈ enqueuedModels log, m.number < model.number
  | .started model => model ∈ enqueuedModels log ∧ ∀ m ∈ startedModels log,
      m.pdu.destination = model.pdu.destination → m.number < model.number
  | .round segments => ∃ m ∈ startedModels log, segments = m.notAcked (ackedBy counts m log)
  | .delivered number => ∃ m ∈ startedModels log, m.number = number ∧
      (isUnicastAddress m.pdu.destination = true →
        (∀ i < m.pdu.count, ackedBy counts m log i = true) ∧ .delivered number ∉ log)
  | .acknowledged _ => True
  | .cancelled _ => True

/-- Every output of a log says so. -/
def Entries (counts : Counts) (log : List Output) : Prop :=
  ∀ pre o post, log = pre ++ o :: post → Entry counts pre o

theorem Entries.append {counts : Counts} {log : List Output} {o : Output}
    (h : Entries counts log) (ho : Entry counts log o) : Entries counts (log ++ [o]) :=
  History.Each.snoc h ho

theorem Entries.init {counts : Counts} {log : List Output} {o : Output}
    (h : Entries counts (log ++ [o])) : Entries counts log :=
  History.Each.init h

theorem Entries.last {counts : Counts} {log : List Output} {o : Output}
    (h : Entries counts (log ++ [o])) : Entry counts log o :=
  History.Each.last h

/-- The messages are enqueued in the order of their numbers. -/
theorem Entries.increasing {counts : Counts} {log : List Output} (h : Entries counts log) :
    (enqueuedModels log).Pairwise (·.number < ·.number) := by
  induction log using List.reverseRecOn with
  | nil => exact List.Pairwise.nil
  | append_singleton log o ih =>
    unfold enqueuedModels
    rw [List.filterMap_append]
    refine List.pairwise_append.mpr ⟨ih h.init, ?_, ?_⟩
    · cases o with
      | enqueued model => exact List.pairwise_singleton ..
      | started | round | acknowledged | delivered | cancelled => exact List.Pairwise.nil
    · intro a ha b hb
      cases o with
      | enqueued model =>
        cases (List.mem_singleton.mp hb : b = model)
        exact h.last a ha
      | started | round | acknowledged | delivered | cancelled =>
        exact absurd hb List.not_mem_nil

/-- Those of a destination are started in that order, each at most once. -/
theorem Entries.startedOrder {counts : Counts} {log : List Output} (h : Entries counts log) :
    (startedModels log).Pairwise fun a b =>
      a.pdu.destination = b.pdu.destination → a.number < b.number := by
  induction log using List.reverseRecOn with
  | nil => exact List.Pairwise.nil
  | append_singleton log o ih =>
    unfold startedModels
    rw [List.filterMap_append]
    refine List.pairwise_append.mpr ⟨ih h.init, ?_, ?_⟩
    · cases o with
      | started model => exact List.pairwise_singleton ..
      | enqueued | round | acknowledged | delivered | cancelled => exact List.Pairwise.nil
    · intro a ha b hb
      cases o with
      | started model =>
        cases (List.mem_singleton.mp hb : b = model)
        exact h.last.2 a ha
      | enqueued | round | acknowledged | delivered | cancelled =>
        exact absurd hb List.not_mem_nil

theorem Entries.eq_of_number {counts : Counts} {log : List Output} (h : Entries counts log)
    {m m' : SigUpperTransportModel} (hm : m ∈ enqueuedModels log)
    (hm' : m' ∈ enqueuedModels log)
    (hnumber : m.number = m'.number) : m = m' := by
  by_contra hne
  have hdistinct : (enqueuedModels log).Pairwise fun a b => a.number ≠ b.number :=
    h.increasing.imp fun hlt => Nat.ne_of_lt hlt
  have : Std.Symm fun a b : SigUpperTransportModel => a.number ≠ b.number :=
    ⟨fun _ _ h => h.symm⟩
  exact hdistinct.forall hm hm' hne hnumber

theorem Entries.enqueued_of_started {counts : Counts} {log : List Output} (h : Entries counts log)
    {m : SigUpperTransportModel} (hm : m ∈ startedModels log) : m ∈ enqueuedModels log := by
  obtain ⟨o, ho, hstarted⟩ := List.mem_filterMap.mp hm
  obtain ⟨pre, post, hsplit⟩ := List.append_of_mem ho
  cases o with
  | started model =>
    cases hstarted
    have hentry := (h pre _ post hsplit).1
    rw [hsplit]
    unfold enqueuedModels
    rw [List.filterMap_append]
    exact List.mem_append_left _ hentry
  | enqueued | round | acknowledged | delivered | cancelled => cases hstarted

/-! ### The shape of a state -/

namespace Sender

variable {manager : SigNetworkManager} {counts : Counts} {s t : Sender}

structure Shape (counts : Counts) (s : Sender) : Prop where
  entries : Entries counts s.log
  own : ∀ d, ∀ m ∈ s.queues d, m.pdu.destination = d ∧ m ∈ enqueuedModels s.log
  sorted : ∀ d, (s.queues d).Pairwise (·.number < ·.number)
  number : ∀ m ∈ enqueuedModels s.log, m.number < s.models
  /-- What stands behind the head has not been started, nor anything younger. -/
  waits : ∀ d, ∀ m ∈ (s.queues d).tail, ∀ m' ∈ startedModels s.log,
    m'.pdu.destination = d → m'.number < m.number
  outgoing : ∀ sequenceZero array, s.outgoingSegments sequenceZero = some array →
    ∃ m ∈ startedModels s.log, m.pdu.sequenceZero = sequenceZero ∧
      array = m.masked (ackedBy counts m s.log) ∧
      (isUnicastAddress m.pdu.destination = true → .delivered m.number ∉ s.log)

/-- A later state of the same run, with its shape. -/
structure Goes (counts : Counts) (s t : Sender) : Prop where
  log : s.log <+: t.log
  shape : Shape counts t

theorem Goes.trans {u : Sender} (h : Goes counts s t) (h' : Goes counts t u) : Goes counts s u :=
  ⟨h.log.trans h'.log, h'.shape⟩

theorem Shape.goes (h : Shape counts s) : Goes counts s s := ⟨List.prefix_refl _, h⟩

/-- What the invariant does not look at. -/
theorem Shape.congr (h : Shape counts s) (hlog : t.log = s.log) (hqueues : t.queues = s.queues)
    (houtgoing : t.outgoingSegments = s.outgoingSegments) (hmodels : t.models = s.models) :
    Shape counts t := by
  refine ⟨?_, ?_, ?_, ?_, ?_, ?_⟩
  · exact hlog ▸ h.entries
  · rw [hlog, hqueues]
    exact h.own
  · exact hqueues ▸ h.sorted
  · rw [hlog, hmodels]
    exact h.number
  · rw [hlog, hqueues]
    exact h.waits
  · rw [hlog, houtgoing]
    exact h.outgoing

theorem startedModels_append_of_ne {log : List Output} {o : Output} (h : o.started? = none) :
    startedModels (log ++ [o]) = startedModels log := by
  simp [startedModels, h]

theorem enqueuedModels_append_of_ne {log : List Output} {o : Output} (h : o.enqueued? = none) :
    enqueuedModels (log ++ [o]) = enqueuedModels log := by
  simp [enqueuedModels, h]

/-! An output that takes up no message leaves the queues and the numbers as they are, and one that
starts none leaves what waits. -/

theorem Shape.own_append (h : Shape counts s) {o : Output} (ho : o.enqueued? = none) :
    ∀ d, ∀ m ∈ s.queues d, m.pdu.destination = d ∧ m ∈ enqueuedModels (s.log ++ [o]) := by
  rw [enqueuedModels_append_of_ne ho]
  exact h.own

theorem Shape.number_append (h : Shape counts s) {o : Output} (ho : o.enqueued? = none) :
    ∀ m ∈ enqueuedModels (s.log ++ [o]), m.number < s.models := by
  rw [enqueuedModels_append_of_ne ho]
  exact h.number

theorem Shape.waits_append (h : Shape counts s) {o : Output} (ho : o.started? = none) :
    ∀ d, ∀ m ∈ (s.queues d).tail, ∀ m' ∈ startedModels (s.log ++ [o]),
      m'.pdu.destination = d → m'.number < m.number := by
  rw [startedModels_append_of_ne ho]
  exact h.waits

/-- An output that starts nothing, acknowledges nothing and delivers nothing. -/
theorem Shape.write (h : Shape counts s) {o : Output} (ho : Entry counts s.log o)
    (henqueued : o.enqueued? = none) (hstarted : o.started? = none)
    (hack : ∀ m, ackStep counts m (ackedBy counts m s.log) o = ackedBy counts m s.log)
    (hdelivered : ∀ number, o ≠ .delivered number) : Shape counts (s.write o) := by
  refine ⟨h.entries.append ho, h.own_append henqueued, h.sorted, h.number_append henqueued,
    h.waits_append hstarted, ?_⟩
  · change ∀ z array, s.outgoingSegments z = some array →
      ∃ m ∈ startedModels (s.log ++ [o]), _ ∧
        array = m.masked (ackedBy counts m (s.log ++ [o])) ∧
        (_ → .delivered m.number ∉ s.log ++ [o])
    rw [startedModels_append_of_ne hstarted]
    intro z array harray
    obtain ⟨m, hm, hz, hmasked, hleft⟩ := h.outgoing z array harray
    refine ⟨m, hm, hz, ?_, fun hunicast hmem => ?_⟩
    · rw [ackedBy_append, hack]
      exact hmasked
    · rcases List.mem_append.mp hmem with hold | hnew
      · exact hleft hunicast hold
      · exact hdelivered _ (List.mem_singleton.mp hnew).symm

/-- Segments go. -/
theorem Shape.removeOutgoing (h : Shape counts s) (sequenceZero : BitVec 16) :
    Shape counts (s.setOutgoing sequenceZero none) := by
  refine ⟨h.entries, h.own, h.sorted, h.number, h.waits, ?_⟩
  intro z array harray
  by_cases hz : z = sequenceZero
  · subst hz
    rw [show (s.setOutgoing z none).outgoingSegments z = none from Function.update_self ..]
      at harray
    cases harray
  · rw [show (s.setOutgoing sequenceZero none).outgoingSegments z = s.outgoingSegments z from
      Function.update_of_ne hz ..] at harray
    exact h.outgoing z array harray

theorem queues_setQueue_self (s : Sender) (destination : BitVec 16)
    (queue : List SigUpperTransportModel) :
    (s.setQueue destination queue).queues destination = queue :=
  Function.update_self ..

theorem queues_setQueue_of_ne (s : Sender) {destination d : BitVec 16} (h : d ≠ destination)
    (queue : List SigUpperTransportModel) : (s.setQueue destination queue).queues d = s.queues d :=
  Function.update_of_ne h ..

theorem outgoingSegments_setOutgoing_self (s : Sender) (z : BitVec 16)
    (array : Option (List (Option OutgoingSegment))) :
    (s.setOutgoing z array).outgoingSegments z = array :=
  Function.update_self ..

theorem outgoingSegments_setOutgoing_of_ne (s : Sender) {z z' : BitVec 16} (h : z' ≠ z)
    (array : Option (List (Option OutgoingSegment))) :
    (s.setOutgoing z array).outgoingSegments z' = s.outgoingSegments z' :=
  Function.update_of_ne h ..

/-- A queue gets shorter. -/
theorem Shape.setQueue (h : Shape counts s) {destination : BitVec 16}
    {queue : List SigUpperTransportModel} (hsub : queue.Sublist (s.queues destination)) :
    Shape counts (s.setQueue destination queue) := by
  have hall : ∀ d, ((s.setQueue destination queue).queues d).Sublist (s.queues d) := by
    intro d
    by_cases hd : d = destination
    · subst hd
      rw [queues_setQueue_self]
      exact hsub
    · rw [queues_setQueue_of_ne s hd]
  exact
    { entries := h.entries
      own := fun d m hm => h.own d m ((hall d).subset hm)
      sorted := fun d => (h.sorted d).sublist (hall d)
      number := h.number
      waits := fun d m hm => h.waits d m ((hall d).tail.subset hm)
      outgoing := h.outgoing }

/-! ### Rounds keep it -/

/-- The state behind the loop of a round. -/
def looped (s : Sender) (segments : List OutgoingSegment) (sno : BitVec 32)
    (network : List (BitVec 32 × LowerPdu)) : Sender :=
  { s.write (.round segments) with sno := sno, network := network }

/-- A round only sends. -/
theorem sendRound_eq (manager : SigNetworkManager) (segments : List OutgoingSegment) (s : Sender) :
    ∃ sno network, sendRound manager segments s = s.looped segments sno network := by
  have hloop : ∀ (segments : List OutgoingSegment) (s : Sender), ∃ sno network,
      segments.foldl (fun s seg => sendLowerTransportPdu manager (.segment seg) s) s =
        { s with sno := sno, network := network } := by
    intro segments
    induction segments with
    | nil => exact fun s => ⟨s.sno, s.network, rfl⟩
    | cons seg segments ih =>
      intro s
      have hsend : ∃ sno network, sendLowerTransportPdu manager (.segment seg) s =
          { s with sno := sno, network := network } := by
        unfold sendLowerTransportPdu
        dsimp only
        split_ifs
        · exact ⟨_, s.network, rfl⟩
        · exact ⟨_, _, rfl⟩
        · exact ⟨s.sno, s.network, rfl⟩
      obtain ⟨sno, network, hsend⟩ := hsend
      obtain ⟨sno', network', hrest⟩ := ih (sendLowerTransportPdu manager (.segment seg) s)
      refine ⟨sno', network', ?_⟩
      rw [List.foldl_cons, hrest, hsend]
  exact hloop segments (s.write (.round segments))

/-- The state behind the loop of a round, as far as the callback of a group is concerned. -/
structure RoundOf (s t : Sender) : Prop where
  queues : t.queues = s.queues
  log : ∃ segments, t.log = s.log ++ [.round segments]

theorem RoundOf.startedModels (h : RoundOf s t) : startedModels t.log = startedModels s.log := by
  obtain ⟨segments, hlog⟩ := h.log
  rw [hlog]
  exact startedModels_append_of_ne rfl

theorem Shape.round (h : Shape counts s) {m : SigUpperTransportModel}
    (hm : m ∈ LowerTransport.startedModels s.log) :
    Shape counts (s.write (.round (m.notAcked (ackedBy counts m s.log)))) :=
  h.write ⟨m, hm, rfl⟩ rfl rfl (fun _ => rfl) (fun _ => nofun)

/-- A delivery, where it may be. -/
theorem Shape.deliver (h : Shape counts s) {m : SigUpperTransportModel}
    (hm : m ∈ LowerTransport.startedModels s.log)
    (hacked : isUnicastAddress m.pdu.destination = true →
      (∀ i < m.pdu.count, ackedBy counts m s.log i = true) ∧ .delivered m.number ∉ s.log ∧
        s.outgoingSegments m.pdu.sequenceZero = none) :
    Shape counts (s.write (.delivered m.number)) := by
  have hentry : Entry counts s.log (.delivered m.number) :=
    ⟨m, hm, rfl, fun hunicast => ⟨(hacked hunicast).1, (hacked hunicast).2.1⟩⟩
  refine ⟨h.entries.append hentry, h.own_append rfl, h.sorted, h.number_append rfl,
    h.waits_append rfl, ?_⟩
  · change ∀ z array, s.outgoingSegments z = some array →
      ∃ m' ∈ LowerTransport.startedModels (s.log ++ [_]), _ ∧
        array = m'.masked (ackedBy counts m' (s.log ++ [_])) ∧
        (_ → .delivered m'.number ∉ s.log ++ [_])
    rw [startedModels_append_of_ne rfl]
    intro z array harray
    obtain ⟨m', hm', hz, hmasked, hleft⟩ := h.outgoing z array harray
    refine ⟨m', hm', hz, ?_, fun hunicast hmem => ?_⟩
    · rw [ackedBy_append]
      exact hmasked
    · rcases List.mem_append.mp hmem with hold | hnew
      · exact hleft hunicast hold
      · have hsame : m' = m := h.entries.eq_of_number (h.entries.enqueued_of_started hm')
          (h.entries.enqueued_of_started hm) (Output.delivered.inj (List.mem_singleton.mp hnew))
        subst hsame
        rw [hz, harray] at hacked
        exact absurd (hacked hunicast).2.2 (by simp)

variable {didSend' : BitVec 16 → Sender → Sender}

theorem shape_afterRound (h : Shape counts t) (sequenceZero : BitVec 16) (limit : Nat)
    {ackExpected : Bool} {array : List (Option OutgoingSegment)}
    (hcall : ackExpected = true → ∀ d, Goes counts t (didSend' d t))
    (hdelivered : segmentsArrayHasMore (t.outgoing sequenceZero) = false ∨ ackExpected = false →
      ∀ seg, firstNotAcknowledgedFrom array = some seg →
        Shape counts (t.write (.delivered seg.number))) :
    Goes counts t (afterRound didSend' sequenceZero limit ackExpected array t) := by
  unfold afterRound
  dsimp only
  split_ifs with hmore hlimit
  · exact ⟨List.prefix_refl _, h.congr rfl rfl rfl rfl⟩
  · split
    · exact ⟨(hcall hmore.1 _).log, (hcall hmore.1 _).shape.removeOutgoing _⟩
    · exact ⟨List.prefix_refl _, h.removeOutgoing _⟩
  · split
    · next seg hseg =>
      refine ⟨List.prefix_append .., (hdelivered ?_ seg hseg).removeOutgoing _⟩
      cases hack : ackExpected with
      | false => exact .inr rfl
      | true => exact .inl (Bool.eq_false_iff.mpr fun h => hmore ⟨hack, h⟩)
    · exact ⟨List.prefix_refl _, h.removeOutgoing _⟩

theorem outgoing_eq {sequenceZero : BitVec 16} {array : List (Option OutgoingSegment)}
    (h : s.outgoingSegments sequenceZero = some array) : s.outgoing sequenceZero = array := by
  unfold outgoing
  rw [h]
  rfl

theorem outgoing_eq_nil {sequenceZero : BitVec 16}
    (h : s.outgoingSegments sequenceZero = none) : s.outgoing sequenceZero = [] := by
  unfold outgoing
  rw [h]
  rfl

/-- What the first segment of an array says. -/
theorem of_firstNotAcknowledged {m : SigUpperTransportModel} {acked : Nat → Bool}
    {seg : OutgoingSegment} (h : firstNotAcknowledgedFrom (m.masked acked) = some seg) :
    seg.number = m.number ∧ seg.segment.destination = m.pdu.destination ∧
      roundAckExpected (m.notAcked acked) = isUnicastAddress m.pdu.destination := by
  have hmem : seg ∈ m.notAcked acked := List.mem_of_mem_head? h
  obtain ⟨hnumber, hdestination⟩ := SigUpperTransportModel.of_mem_notAcked hmem
  refine ⟨hnumber, hdestination, ?_⟩
  exact roundAckExpected_eq (List.ne_nil_of_mem hmem) fun seg hseg =>
    (SigUpperTransportModel.of_mem_notAcked hseg).2

theorem shape_sendSegments (h : Shape counts s)
    (hcall : ∀ d t, RoundOf s t → Shape counts t → Goes counts t (didSend' d t))
    (sequenceZero : BitVec 16) (limit : Nat) :
    Goes counts s (sendSegments manager didSend' sequenceZero limit s) := by
  unfold sendSegments
  dsimp only
  cases harray : s.outgoingSegments sequenceZero with
  | none =>
    rw [if_pos (outgoing_eq_nil harray)]
    exact h.goes
  | some array =>
    by_cases hempty : s.outgoing sequenceZero = []
    · rw [if_pos hempty]
      exact h.goes
    rw [if_neg hempty, outgoing_eq harray]
    obtain ⟨m, hm, -, hmasked, -⟩ := h.outgoing sequenceZero array harray
    subst hmasked
    change Goes counts s (afterRound didSend' sequenceZero limit
      (roundAckExpected (m.notAcked (ackedBy counts m s.log))) _ _)
    rw [show (m.masked (ackedBy counts m s.log)).filterMap id =
      m.notAcked (ackedBy counts m s.log) from rfl]
    obtain ⟨sno, network, hround⟩ := sendRound_eq manager
      (m.notAcked (ackedBy counts m s.log)) s
    rw [hround]
    have hshape := h.round hm
    generalize hs₁ : s.looped (m.notAcked (ackedBy counts m s.log)) sno network = s₁
    have hshape₁ : Shape counts s₁ := hs₁ ▸ hshape.congr rfl rfl rfl rfl
    have hof : RoundOf s s₁ := hs₁ ▸ ⟨rfl, _, rfl⟩
    have hsame : s₁.outgoingSegments = s.outgoingSegments := hs₁ ▸ rfl
    have hgoes : Goes counts s s₁ := ⟨hs₁ ▸ List.prefix_append .., hshape₁⟩
    clear hs₁ hround hshape
    -- A message to a group may be delivered behind the callback too.
    have hgroup : ∀ {t}, Goes counts s t →
        roundAckExpected (m.notAcked (ackedBy counts m s.log)) = false →
        ∀ seg, firstNotAcknowledgedFrom (m.masked (ackedBy counts m s.log)) = some seg →
          Shape counts (t.write (.delivered seg.number)) := by
      intro t ht hexpected seg hseg
      obtain ⟨hnumber, -, hack⟩ := of_firstNotAcknowledged hseg
      rw [hnumber]
      refine ht.shape.deliver ((ht.log.filterMap _).subset hm) fun hunicast => ?_
      rw [hexpected, hunicast] at hack
      cases hack
    by_cases hcallback : roundAckExpected (m.notAcked (ackedBy counts m s.log)) = false ∧
        roundDestination (m.notAcked (ackedBy counts m s.log)) ≠ 0
    · rw [if_pos hcallback]
      have hnext := hcall (roundDestination (m.notAcked (ackedBy counts m s.log))) s₁ hof
        hshape₁
      have hset : Goes counts s ((didSend' (roundDestination (m.notAcked (ackedBy counts m s.log)))
          s₁).setTransmissionTimer sequenceZero none) :=
        ⟨(hgoes.trans hnext).log, hnext.shape.congr rfl rfl rfl rfl⟩
      refine hset.trans (shape_afterRound hset.shape _ _ (fun htrue => ?_) fun _ => ?_)
      · rw [hcallback.1] at htrue
        cases htrue
      · exact hgroup hset hcallback.1
    · rw [if_neg hcallback]
      have hset : Goes counts s (s₁.setTransmissionTimer sequenceZero none) :=
        ⟨hgoes.log, hshape₁.congr rfl rfl rfl rfl⟩
      have hof' : RoundOf s (s₁.setTransmissionTimer sequenceZero none) :=
        ⟨hof.queues, hof.log⟩
      refine hset.trans (shape_afterRound hset.shape _ _ (fun _ d => hcall d _ hof' hset.shape) ?_)
      intro hor seg hseg
      rcases hor with hmore | hexpected
      · have hthere : (s₁.setTransmissionTimer sequenceZero none).outgoing sequenceZero =
            m.masked (ackedBy counts m s.log) := outgoing_eq (hsame ▸ harray)
        rw [hthere, hasMore_eq, hseg] at hmore
        cases hmore
      · exact hgroup hset hexpected seg hseg

/-! ### Queues keep it -/

/-- A delivered message has been started. -/
theorem Shape.started_of_delivered (h : Shape counts s) {number : Nat}
    (hdelivered : .delivered number ∈ s.log) :
    ∃ m ∈ LowerTransport.startedModels s.log, m.number = number := by
  obtain ⟨pre, post, hsplit⟩ := List.append_of_mem hdelivered
  obtain ⟨m, hm, hnumber, -⟩ := h.entries pre _ post hsplit
  refine ⟨m, ?_, hnumber⟩
  rw [hsplit]
  unfold LowerTransport.startedModels
  rw [List.filterMap_append]
  exact List.mem_append_left _ hm

theorem startedModels_append_started (log : List Output) (model : SigUpperTransportModel) :
    LowerTransport.startedModels (log ++ [.started model]) =
      LowerTransport.startedModels log ++ [model] := by
  unfold LowerTransport.startedModels
  rw [List.filterMap_append]
  rfl

/-- **A message starts**: the head of its queue. -/
theorem Shape.start (h : Shape counts s) {model : SigUpperTransportModel}
    {queue : List SigUpperTransportModel}
    (hqueue : s.queues model.pdu.destination = model :: queue)
    (hfresh : ∀ m ∈ LowerTransport.startedModels s.log,
      m.pdu.destination = model.pdu.destination → m.number < model.number) :
    Shape counts ((startTXTimeout model.pdu.destination model.pdu.sequenceZero
      (s.write (.started model))).setOutgoing model.pdu.sequenceZero
      (some (model.segments.map some))) := by
  have hmodel : model ∈ enqueuedModels s.log :=
    (h.own _ model (hqueue ▸ List.mem_cons_self)).2
  have hnew : ∀ m ∈ LowerTransport.startedModels s.log, m ≠ model := by
    intro m hm heq
    exact Nat.lt_irrefl _ (heq ▸ hfresh m hm (heq ▸ rfl))
  refine ⟨h.entries.append ⟨hmodel, hfresh⟩, h.own_append rfl, h.sorted, h.number_append rfl, ?_,
    ?_⟩
  · change ∀ d, ∀ m ∈ (s.queues d).tail,
      ∀ m' ∈ LowerTransport.startedModels (s.log ++ [.started model]), _
    rw [startedModels_append_started]
    intro d m hm m' hm' hd
    rcases List.mem_append.mp hm' with hold | hself
    · exact h.waits d m hm m' hold hd
    · cases List.mem_singleton.mp hself
      have hsorted := h.sorted model.pdu.destination
      rw [← hd, hqueue] at hm
      rw [hqueue] at hsorted
      exact (List.pairwise_cons.mp hsorted).1 m hm
  · intro z array harray
    change ∃ m ∈ LowerTransport.startedModels (s.log ++ [.started model]), _ ∧
      array = m.masked (ackedBy counts m (s.log ++ [.started model])) ∧
      (_ → .delivered m.number ∉ s.log ++ [.started model])
    rw [startedModels_append_started]
    by_cases hz : z = model.pdu.sequenceZero
    · subst hz
      rw [outgoingSegments_setOutgoing_self] at harray
      refine ⟨model, List.mem_append_right _ List.mem_cons_self, rfl, ?_, fun _ hmem => ?_⟩
      · rw [ackedBy_append, show ackStep counts model _ (.started model) = fun _ => false from
          if_pos rfl, ← SigUpperTransportModel.segments_map_some]
        exact (Option.some.inj harray).symm
      · rcases List.mem_append.mp hmem with hold | hself
        · obtain ⟨m, hm, hnumber⟩ := h.started_of_delivered hold
          exact hnew m hm (h.entries.eq_of_number (h.entries.enqueued_of_started hm) hmodel hnumber)
        · cases List.mem_singleton.mp hself
    · rw [outgoingSegments_setOutgoing_of_ne _ hz] at harray
      obtain ⟨m, hm, hmz, hmasked, hleft⟩ := h.outgoing z array harray
      refine ⟨m, List.mem_append_left _ hm, hmz, ?_, fun hunicast hmem => ?_⟩
      · rw [ackedBy_append, show ackStep counts m _ (.started model) = ackedBy counts m s.log from
          if_neg (hnew m hm).symm]
        exact hmasked
      · rcases List.mem_append.mp hmem with hold | hself
        · exact hleft hunicast hold
        · cases List.mem_singleton.mp hself

theorem shape_sendNext (manager : SigNetworkManager) (destination : BitVec 16)
    (queue : List SigUpperTransportModel) :
    ∀ {s : Sender}, Shape counts s → s.queues destination = queue →
      (∀ m ∈ queue, ∀ m' ∈ LowerTransport.startedModels s.log,
        m'.pdu.destination = destination → m'.number < m.number) →
      Goes counts s (sendNext manager destination queue s) := by
  induction queue with
  | nil => exact fun h _ _ => h.goes
  | cons model queue ih =>
    intro s h hqueue hfresh
    have hown : model.pdu.destination = destination :=
      (h.own destination model (hqueue ▸ List.mem_cons_self)).1
    subst hown
    have hstart := h.start hqueue (hfresh model List.mem_cons_self)
    have hlog : Goes counts s _ := ⟨List.prefix_append .., hstart⟩
    refine hlog.trans (shape_sendSegments hstart (fun d t hof ht => ?_) _ _)
    -- The callback of a group is for the message that is just being sent.
    have htqueue : t.queues model.pdu.destination = model :: queue := hof.queues ▸ hqueue
    have hpopped : Shape counts (t.setQueue model.pdu.destination queue) :=
      ht.setQueue (htqueue ▸ List.sublist_cons_self ..)
    have hwaits := ht.waits model.pdu.destination
    rw [htqueue] at hwaits
    have hnext := ih hpopped (queues_setQueue_self ..) hwaits
    exact ⟨hnext.log, hnext.shape⟩

theorem shape_didSend (destination : BitVec 16) (s : Sender) (h : Shape counts s) :
    Goes counts s (didSend manager destination s) := by
  unfold didSend
  cases hqueue : s.queues destination with
  | nil => exact h.goes
  | cons model queue =>
    have hpopped : Shape counts (s.setQueue destination queue) :=
      h.setQueue (hqueue ▸ List.sublist_cons_self ..)
    have hwaits := h.waits destination
    rw [hqueue] at hwaits
    have hnext := shape_sendNext manager destination queue hpopped
      (queues_setQueue_self ..) hwaits
    exact ⟨hnext.log, hnext.shape⟩

/-- `t` is `s` with one more message, at the end of its queue. -/
structure Joined (s t : Sender) (model : SigUpperTransportModel) : Prop where
  number : model.number = s.models
  models : t.models = s.models + 1
  self : t.queues model.pdu.destination = s.queues model.pdu.destination ++ [model]
  other : ∀ d, d ≠ model.pdu.destination → t.queues d = s.queues d
  log : t.log = s.log ++ [.enqueued model]
  outgoing : t.outgoingSegments = s.outgoingSegments
  timers : t.segmentTransmissionTimers = s.segmentTransmissionTimers

theorem joined_write (s : Sender) (pdu : SigUpperTransportPdu) :
    Joined s ((Sender.write { s with models := s.models + 1 }
      (.enqueued ⟨s.models, pdu⟩)).setQueue pdu.destination
        (s.queues pdu.destination ++ [SigUpperTransportModel.mk s.models pdu]))
      ⟨s.models, pdu⟩ where
  number := rfl
  models := rfl
  self := queues_setQueue_self ..
  other _ hd := queues_setQueue_of_ne _ hd _
  log := rfl
  outgoing := rfl
  timers := rfl

namespace Joined

variable {model : SigUpperTransportModel} {d : BitVec 16} {m : SigUpperTransportModel}

theorem enqueued (h : Joined s t model) :
    enqueuedModels t.log = enqueuedModels s.log ++ [model] := by
  rw [h.log]
  unfold enqueuedModels
  rw [List.filterMap_append]
  rfl

theorem started (h : Joined s t model) :
    LowerTransport.startedModels t.log = LowerTransport.startedModels s.log := by
  rw [h.log]
  exact startedModels_append_of_ne rfl

theorem mem (h : Joined s t model) (hm : m ∈ t.queues d) :
    m ∈ s.queues d ∨ (d = model.pdu.destination ∧ m = model) := by
  by_cases hd : d = model.pdu.destination
  · rw [hd, h.self] at hm
    rcases List.mem_append.mp hm with hold | hnew
    · exact .inl (hd ▸ hold)
    · exact .inr ⟨hd, List.mem_singleton.mp hnew⟩
  · exact .inl (h.other d hd ▸ hm)

/-- The head of a queue stays the head. -/
theorem head (h : Joined s t model) {queue : List SigUpperTransportModel}
    (hqueue : s.queues d = m :: queue) :
    t.queues d = m :: (queue ++ if d = model.pdu.destination then [model] else []) := by
  by_cases hd : d = model.pdu.destination
  · rw [if_pos hd, hd, h.self, ← hd, hqueue]
    rfl
  · rw [if_neg hd, h.other d hd, hqueue, List.append_nil]

theorem mem_tail (h : Joined s t model) (hm : m ∈ (t.queues d).tail) :
    m ∈ (s.queues d).tail ∨ m = model := by
  cases hqueue : s.queues d with
  | nil =>
    rcases h.mem (List.mem_of_mem_tail hm) with hold | hnew
    · rw [hqueue] at hold
      exact absurd hold List.not_mem_nil
    · exact .inr hnew.2
  | cons head queue =>
    rw [h.head hqueue] at hm
    rcases List.mem_append.mp (show m ∈ queue ++ _ from hm) with hold | hnew
    · exact .inl hold
    · split_ifs at hnew
      · exact .inr (List.mem_singleton.mp hnew)
      · exact absurd hnew List.not_mem_nil

theorem tail_subset (h : Joined s t model) (hm : m ∈ (s.queues d).tail) :
    m ∈ (t.queues d).tail := by
  cases hqueue : s.queues d with
  | nil =>
    rw [hqueue] at hm
    exact absurd hm List.not_mem_nil
  | cons head queue =>
    rw [hqueue] at hm
    rw [h.head hqueue]
    exact List.mem_append_left _ hm

end Joined

/-- A message joins its queue. -/
theorem Shape.joined {model : SigUpperTransportModel} (h : Shape counts s)
    (hjoin : Joined s t model) : Shape counts t := by
  have hyoung : ∀ m ∈ enqueuedModels s.log, m.number < model.number := fun m hm =>
    hjoin.number ▸ h.number m hm
  refine ⟨hjoin.log ▸ h.entries.append hyoung, ?_, ?_, ?_, ?_, ?_⟩
  · intro d m hm
    rw [hjoin.enqueued]
    rcases hjoin.mem hm with hold | ⟨hd, hnew⟩
    · exact ⟨(h.own d m hold).1, List.mem_append_left _ (h.own d m hold).2⟩
    · exact ⟨by rw [hd, hnew], List.mem_append_right _ (hnew ▸ List.mem_cons_self)⟩
  · intro d
    by_cases hd : d = model.pdu.destination
    · rw [hd, hjoin.self]
      refine List.pairwise_append.mpr ⟨h.sorted _, List.pairwise_singleton .., ?_⟩
      intro a ha b hb
      exact List.mem_singleton.mp hb ▸ hyoung a (h.own _ a ha).2
    · rw [hjoin.other d hd]
      exact h.sorted d
  · intro m hm
    rw [hjoin.enqueued] at hm
    rw [hjoin.models]
    rcases List.mem_append.mp hm with hold | hnew
    · exact Nat.lt_succ_of_lt (h.number m hold)
    · rw [List.mem_singleton.mp hnew, hjoin.number]
      exact Nat.lt_succ_self _
  · intro d m hm m' hm' hdestination
    rw [hjoin.started] at hm'
    rcases hjoin.mem_tail hm with hold | rfl
    · exact h.waits d m hold m' hm' hdestination
    · exact hyoung m' (h.entries.enqueued_of_started hm')
  · intro z array harray
    rw [hjoin.outgoing] at harray
    obtain ⟨m, hm, hz, hmasked, hleft⟩ := h.outgoing z array harray
    rw [hjoin.started, hjoin.log]
    refine ⟨m, hm, hz, (ackedBy_append ..).symm ▸ hmasked, fun hunicast hmem => ?_⟩
    rcases List.mem_append.mp hmem with hold | hself
    · exact hleft hunicast hold
    · cases List.mem_singleton.mp hself

theorem Shape.join (h : Shape counts s) (pdu : SigUpperTransportPdu) :
    Shape counts ((Sender.write { s with models := s.models + 1 }
      (.enqueued ⟨s.models, pdu⟩)).setQueue pdu.destination
        (s.queues pdu.destination ++ [SigUpperTransportModel.mk s.models pdu])) :=
  h.joined (joined_write s pdu)

theorem shape_enqueue (pdu : SigUpperTransportPdu) (h : Shape counts s) :
    Shape counts (enqueue manager pdu s) := by
  have hjoin := h.join pdu
  unfold enqueue
  dsimp only
  by_cases hone : (s.queues pdu.destination ++
      [SigUpperTransportModel.mk s.models pdu]).length = 1
  · rw [if_pos hone]
    refine (shape_sendNext _ _ _ hjoin (queues_setQueue_self ..) ?_).shape
    change ∀ m ∈ _, ∀ m' ∈ LowerTransport.startedModels (s.log ++ [_]), _
    rw [startedModels_append_of_ne rfl]
    intro m hm m' hm' _
    have hnil : s.queues pdu.destination = [] := by
      rw [List.length_append, List.length_singleton] at hone
      exact List.length_eq_zero_iff.mp (Nat.succ_injective hone)
    rw [hnil] at hm
    cases List.mem_singleton.mp hm
    exact h.number m' (h.entries.enqueued_of_started hm')
  · rw [if_neg hone]
    exact hjoin

theorem shape_cancelHandle (handle : SigMessageHandle) (h : Shape counts s) :
    Shape counts (cancelHandle manager handle s) := by
  have hcancelled : ∀ (models : List SigUpperTransportModel) (s : Sender), Shape counts s →
      Shape counts (models.foldl (fun s m => s.write (.cancelled m)) s) ∧
        (models.foldl (fun s m => s.write (.cancelled m)) s).queues = s.queues := by
    intro models
    induction models with
    | nil => exact fun s h => ⟨h, rfl⟩
    | cons model models ih =>
      intro s h
      exact ih _ (h.write trivial rfl rfl (fun _ => rfl) (fun _ => nofun))
  unfold cancelHandle
  cases hqueue : s.queues handle.destination with
  | nil => exact h
  | cons model queue =>
    dsimp only
    obtain ⟨hlogged, hqueues⟩ := hcancelled ((model :: queue).filter handle.isOf) s h
    generalize ((model :: queue).filter handle.isOf).foldl _ s = s₁ at hlogged hqueues ⊢
    rw [← hqueues] at hqueue
    have hsub : ((model :: queue).filter fun m => !handle.isOf m).Sublist
        (s₁.queues handle.destination) := hqueue ▸ List.filter_sublist
    split_ifs
    · refine (shape_didSend _ _ ?_).shape
      refine Shape.setQueue (s := cancelSending model.pdu s₁) ?_ hsub
      exact (hlogged.removeOutgoing _).congr rfl rfl rfl rfl
    · exact hlogged.setQueue hsub

/-! ### Acknowledgments and timers keep it -/

/-- An acknowledgment counts for the segments that it names and that are still there. -/
def Honoured (counts : Counts) (s : Sender) (ack : SigSegmentAcknowledgmentMessage) : Prop :=
  ∀ i seg, (s.outgoing ack.sequenceZero)[i]? = some (some seg) →
    ack.isSegmentReceived i = true → ∀ m : SigUpperTransportModel,
      m.pdu.destination = seg.segment.destination → counts ack m = true

/-- The segments that are left are those without an acknowledgment, this one included. -/
theorem masked_acknowledged {ack : SigSegmentAcknowledgmentMessage} (hgood : Honoured counts s ack)
    {m : SigUpperTransportModel} (hz : m.pdu.sequenceZero = ack.sequenceZero)
    (harray : s.outgoing ack.sequenceZero = m.masked (ackedBy counts m s.log)) :
    ((m.masked (ackedBy counts m s.log)).mapIdx fun i seg =>
      if ack.isSegmentReceived i then none else seg) =
        m.masked (ackedBy counts m (s.log ++ [.acknowledged ack])) := by
  rw [SigUpperTransportModel.mapIdx_masked, ackedBy_append]
  refine SigUpperTransportModel.masked_congr fun i hi => ?_
  change _ = (if ack.sequenceZero = m.pdu.sequenceZero ∧ counts ack m then
    fun i => ackedBy counts m s.log i || ack.isSegmentReceived i else ackedBy counts m s.log) i
  by_cases hcounts : counts ack m = true
  · rw [if_pos ⟨hz.symm, hcounts⟩]
  · rw [if_neg fun h => hcounts h.2]
    by_cases hacked : ackedBy counts m s.log i = true
    · rw [hacked, Bool.true_or]
    · have hi' : i < m.segments.length := SigUpperTransportModel.length_segments ▸ hi
      have hthere : (s.outgoing ack.sequenceZero)[i]? = some (some m.segments[i]) := by
        rw [harray, SigUpperTransportModel.masked, List.getElem?_mapIdx,
          List.getElem?_eq_getElem hi', Option.map_some, if_neg hacked]
      have hnot : ack.isSegmentReceived i = false := by
        refine Bool.eq_false_iff.mpr fun hreceived => hcounts ?_
        exact hgood i _ hthere hreceived m
          (SigUpperTransportModel.of_mem_segments (List.getElem_mem hi')).2.symm
      rw [hnot, Bool.or_false]

/-- An acknowledgment is logged, and the array of its SeqZero is what it should be. -/
theorem Shape.acknowledge (h : Shape counts s) (ack : SigSegmentAcknowledgmentMessage)
    {o : Option (List (Option OutgoingSegment))}
    (ho : ∀ array, o = some array → ∃ m ∈ LowerTransport.startedModels s.log,
      m.pdu.sequenceZero = ack.sequenceZero ∧
      array = m.masked (ackedBy counts m (s.log ++ [.acknowledged ack])) ∧
      (isUnicastAddress m.pdu.destination = true → .delivered m.number ∉ s.log)) :
    Shape counts ((s.write (.acknowledged ack)).setOutgoing ack.sequenceZero o) := by
  refine ⟨h.entries.append trivial, h.own_append rfl, h.sorted, h.number_append rfl,
    h.waits_append rfl, ?_⟩
  · intro z array harray
    change ∃ m ∈ LowerTransport.startedModels (s.log ++ [.acknowledged ack]), _ ∧
      array = m.masked (ackedBy counts m (s.log ++ [.acknowledged ack])) ∧
      (_ → .delivered m.number ∉ s.log ++ [.acknowledged ack])
    rw [startedModels_append_of_ne rfl]
    have hleft : ∀ {number}, .delivered number ∉ s.log →
        .delivered number ∉ s.log ++ [.acknowledged ack] := by
      intro number hno hmem
      rcases List.mem_append.mp hmem with hold | hself
      · exact hno hold
      · cases List.mem_singleton.mp hself
    by_cases hz : z = ack.sequenceZero
    · subst hz
      rw [outgoingSegments_setOutgoing_self] at harray
      obtain ⟨m, hm, hmz, hmasked, hno⟩ := ho array harray
      exact ⟨m, hm, hmz, hmasked, fun hunicast => hleft (hno hunicast)⟩
    · rw [outgoingSegments_setOutgoing_of_ne _ hz] at harray
      obtain ⟨m, hm, hmz, hmasked, hno⟩ := h.outgoing z array harray
      refine ⟨m, hm, hmz, ?_, fun hunicast => hleft (hno hunicast)⟩
      have hother : ackStep counts m (ackedBy counts m s.log) (.acknowledged ack) =
          ackedBy counts m s.log := if_neg fun hack => hz (hmz ▸ hack.1.symm)
      rw [ackedBy_append, hother]
      exact hmasked

theorem ackedBy_acknowledged {m : SigUpperTransportModel} {log : List Output} {i : Nat}
    (h : ackedBy counts m log i = true) (ack : SigSegmentAcknowledgmentMessage) :
    ackedBy counts m (log ++ [.acknowledged ack]) i = true := by
  rw [ackedBy_append]
  change (if _ then fun i => ackedBy counts m log i || ack.isSegmentReceived i
    else ackedBy counts m log) i = true
  split_ifs
  · exact Bool.or_eq_true_iff.mpr (.inl h)
  · exact h

theorem shape_handleSegmentAcknowledgment (ack : SigSegmentAcknowledgmentMessage)
    (h : Shape counts s) (hgood : Honoured counts s ack) :
    Shape counts (handleSegmentAcknowledgment manager ack s) := by
  unfold handleSegmentAcknowledgment
  dsimp only
  rw [show (s.write (.acknowledged ack)).outgoing ack.sequenceZero = s.outgoing ack.sequenceZero
    from rfl]
  cases hfirst : firstNotAcknowledgedFrom (s.outgoing ack.sequenceZero) with
  | none =>
    refine (h.acknowledge ack (o := s.outgoingSegments ack.sequenceZero) ?_).congr rfl rfl
      (Function.update_eq_self ..).symm rfl
    · intro array harray
      obtain ⟨m, hm, hz, hmasked, hno⟩ := h.outgoing _ array harray
      refine ⟨m, hm, hz, ?_, hno⟩
      rw [hmasked]
      refine SigUpperTransportModel.masked_congr fun i hi => ?_
      have hnil : m.notAcked (ackedBy counts m s.log) = [] := by
        rw [outgoing_eq harray, hmasked] at hfirst
        exact List.head?_eq_none_iff.mp hfirst
      have hacked := SigUpperTransportModel.acked_of_notAcked_nil hnil hi
      rw [hacked, ackedBy_acknowledged hacked]
  | some segment =>
    cases harray : s.outgoingSegments ack.sequenceZero with
    | none =>
      rw [outgoing_eq_nil harray] at hfirst
      cases hfirst
    | some array =>
      obtain ⟨m, hm, hz, hmasked, hno⟩ := h.outgoing _ array harray
      have houtgoing : s.outgoing ack.sequenceZero = m.masked (ackedBy counts m s.log) :=
        (outgoing_eq harray).trans hmasked
      have hcleared := masked_acknowledged hgood hz houtgoing
      have hnone := h.acknowledge ack (o := none) fun _ hsome => nomatch hsome
      rw [houtgoing] at hfirst
      obtain ⟨hnumber, -, -⟩ := of_firstNotAcknowledged hfirst
      dsimp only
      by_cases hbusy : ack.isBusy = true
      · rw [if_pos hbusy]
        exact hnone.congr rfl rfl rfl rfl
      have hnow : ((s.write (.acknowledged ack)).setTransmissionTimer ack.sequenceZero
          none).outgoing ack.sequenceZero = m.masked (ackedBy counts m s.log) := houtgoing
      rw [if_neg hbusy, hnow, hcleared]
      by_cases hmore : segmentsArrayHasMore
          (m.masked (ackedBy counts m (s.log ++ [.acknowledged ack]))) = true
      · rw [if_pos hmore]
        have hsome := h.acknowledge ack (o := some (m.masked _)) fun array harray =>
          ⟨m, hm, hz, (Option.some.inj harray).symm, hno⟩
        refine (shape_sendSegments (s := setOutgoing _ _ _) ?_ (fun d t _ ht => ?_) _ _).shape
        · exact hsome.congr rfl rfl rfl rfl
        · exact shape_didSend d t ht
      · rw [if_neg hmore]
        refine (shape_didSend _ _ ?_).shape
        rw [hnumber]
        refine Shape.deliver (s := setOutgoing _ _ _) ?_ ?_ fun hunicast => ⟨?_, ?_, ?_⟩
        · exact hnone.congr rfl rfl (Function.update_idem ..) rfl
        · change m ∈ LowerTransport.startedModels (s.log ++ [_])
          rw [startedModels_append_of_ne rfl]
          exact hm
        · rw [hasMore_eq, Bool.not_eq_true, Option.isSome_eq_false_iff] at hmore
          have hnil := List.head?_eq_none_iff.mp (Option.isNone_iff_eq_none.mp hmore)
          exact fun i hi => SigUpperTransportModel.acked_of_notAcked_nil hnil hi
        · intro hmem
          rcases List.mem_append.mp hmem with hold | hself
          · exact hno hunicast hold
          · cases List.mem_singleton.mp hself
        · rw [hz]
          exact Function.update_self ..

theorem shape_transmissionTimer (sequenceZero : BitVec 16) (h : Shape counts s) :
    Shape counts (transmissionTimer manager sequenceZero s) := by
  unfold transmissionTimer
  split
  · exact h
  · refine (shape_sendSegments (s := setTransmissionTimer _ _ _) ?_ (fun d t _ ht => ?_) _ _).shape
    · exact h.congr rfl rfl rfl rfl
    · exact shape_didSend d t ht

theorem shape_txTimeout (address sequenceZero : BitVec 16) (h : Shape counts s) :
    Shape counts (txTimeout manager address sequenceZero s) := by
  have hremoved : ∀ key, Shape counts (s.removeIncompleteTimer key) :=
    fun key => h.congr rfl rfl rfl rfl
  unfold txTimeout
  dsimp only
  split_ifs
  · refine Shape.removeOutgoing ?_ _
    split
    · exact (shape_didSend _ _ (hremoved _)).shape
    · exact hremoved _
  · exact h

/-! ### Runs -/

/-- The condition on an acknowledgment. -/
def HonouredStep (counts : Counts) (s : Sender) : Event → Prop
  | .acknowledgment ack => Honoured counts s ack
  | _ => True

/-- A network PDU of its own changes nothing here. -/
theorem Shape.send (h : Shape counts s) (pdu : LowerPdu) :
    Shape counts (sendLowerTransportPdu manager pdu s) := by
  unfold sendLowerTransportPdu
  dsimp only
  split_ifs
  · exact h.congr rfl rfl rfl rfl
  · exact h.congr rfl rfl rfl rfl
  · exact h

theorem networkKeeps_shape : NetworkKeeps manager (Shape counts) :=
  ⟨fun _ pdu h => h.send pdu, fun _ _ h => h.congr rfl rfl rfl rfl⟩

theorem shape_sendAccessPdu (pdu : OutgoingAccessPdu) (command isSending : Bool)
    (h : Shape counts s) : Shape counts (sendAccessPdu manager pdu command isSending s) := by
  unfold sendAccessPdu
  dsimp only
  generalize pdu.upperTransportPdu manager.ssl manager.ivIndex s.sno = upper
  have hencrypted : Shape counts { s with encrypted := s.encrypted ++ [upper] } :=
    h.congr rfl rfl rfl rfl
  split_ifs
  · exact shape_enqueue _ hencrypted
  · exact hencrypted.send _
  · exact networkKeeps_shape.other hencrypted _ _

/-- **One step.** -/
theorem shape_next {e : Event} (h : Shape counts s) (hgood : HonouredStep counts s e) :
    Shape counts (next manager s e) := by
  cases e with
  | sendAccessPdu pdu command isSending => exact shape_sendAccessPdu pdu command isSending h
  | acknowledgment ack => exact shape_handleSegmentAcknowledgment ack h hgood
  | transmissionTimer sequenceZero => exact shape_transmissionTimer sequenceZero h
  | txTimeout address sequenceZero => exact shape_txTimeout address sequenceZero h
  | cancel handle => exact shape_cancelHandle handle h
  | sendAck ack isSending => exact networkKeeps_shape.ack h ack isSending
  | received sequence => exact h.congr rfl rfl rfl rfl
  | bearer isOpen => exact h.congr rfl rfl rfl rfl

theorem shape_init (counts : Counts) (sno : BitVec 32) : Shape counts (init sno) := by
  refine ⟨?_, ?_, fun _ => List.Pairwise.nil, ?_, ?_, ?_⟩
  · intro pre o post hsplit
    exact absurd (show [] = pre ++ o :: post from hsplit) (by simp)
  · exact fun _ _ hm => absurd hm List.not_mem_nil
  · exact fun _ hm => absurd hm List.not_mem_nil
  · exact fun _ _ hm => absurd hm List.not_mem_nil
  · exact fun _ _ harray => nomatch harray

end Sender

end LowerTransport

end PirMesh
