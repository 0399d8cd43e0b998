import PirMesh.Phone.QueueShape

/-! # Phone — A queue and its head (`SigUpperTransportLayer.m`, `SigLowerTransportLayer.m`)

Every end of a transmission takes the head off its queue and starts the next message, so a queue
with messages has its head outstanding (`Flow`). -/

namespace PirMesh

namespace LowerTransport

namespace Sender

variable {manager : SigNetworkManager} {s s' t : Sender} {counts : Counts}
variable {didSend' : BitVec 16 → Sender → Sender}

/-! ### Rounds and starts of messages to a unicast address -/

theorem retransmissionLimit_pos (manager : SigNetworkManager) : 0 < manager.retransmissionLimit :=
  Nat.lt_of_lt_of_le Nat.zero_lt_two (Nat.le_max_right ..)

theorem segments_ne_nil {m : SigUpperTransportModel} (h : 0 < m.pdu.count) : m.segments ≠ [] :=
  List.ne_nil_of_length_pos (SigUpperTransportModel.length_segments ▸ h)

theorem setTransmissionTimer_self (s : Sender) (z : BitVec 16) (limit : Option Nat) :
    (s.setTransmissionTimer z limit).segmentTransmissionTimers z = limit :=
  Function.update_self ..

theorem setTransmissionTimer_of_ne (s : Sender) {z z' : BitVec 16} (h : z' ≠ z)
    (limit : Option Nat) : (s.setTransmissionTimer z limit).segmentTransmissionTimers z' =
      s.segmentTransmissionTimers z' :=
  Function.update_of_ne h ..

theorem setTransmissionTimer_idem (s : Sender) (z : BitVec 16) (limit limit' : Option Nat) :
    (s.setTransmissionTimer z limit).setTransmissionTimer z limit' =
      s.setTransmissionTimer z limit' := by
  unfold setTransmissionTimer
  dsimp only
  rw [Function.update_idem]

/-- The state behind a round of a message to a unicast address. -/
theorem sendSegments_unicast (manager : SigNetworkManager)
    (didSend' : BitVec 16 → Sender → Sender) {m : SigUpperTransportModel} {acked : Nat → Bool}
    {sequenceZero : BitVec 16} (limit : Nat)
    (harray : s.outgoingSegments sequenceZero = some (m.masked acked))
    (hleft : m.notAcked acked ≠ []) (hunicast : isUnicastAddress m.pdu.destination = true) :
    ∃ sno network, sendSegments manager didSend' sequenceZero limit s =
      if 0 < limit then (s.looped (m.notAcked acked) sno network).setTransmissionTimer
        sequenceZero (some (limit - 1))
      else (didSend' m.pdu.destination ((s.looped (m.notAcked acked) sno
        network).setTransmissionTimer sequenceZero none)).setOutgoing sequenceZero none := by
  obtain ⟨sno, network, hround⟩ := sendRound_eq manager (m.notAcked acked) s
  refine ⟨sno, network, ?_⟩
  have hempty : m.masked acked ≠ [] := by
    intro hnil
    exact hleft (by rw [SigUpperTransportModel.notAcked, hnil]; rfl)
  obtain ⟨seg, hseg⟩ : ∃ seg, firstNotAcknowledgedFrom (m.masked acked) = some seg :=
    Option.isSome_iff_exists.mp (List.isSome_head?.mpr hleft)
  obtain ⟨-, hdestination, hexpected⟩ := of_firstNotAcknowledged hseg
  unfold sendSegments
  dsimp only
  rw [outgoing_eq harray, if_neg hempty, show (m.masked acked).filterMap id = m.notAcked acked
    from rfl, hexpected, hunicast, if_neg (fun h => nomatch h.1), hround]
  have hthere : ((s.looped (m.notAcked acked) sno network).setTransmissionTimer sequenceZero
      none).outgoing sequenceZero = m.masked acked :=
    outgoing_eq (s := setTransmissionTimer _ _ _) harray
  unfold afterRound
  dsimp only
  rw [hthere, hasMore_eq, hseg, if_pos ⟨rfl, rfl⟩, setTransmissionTimer_idem]
  dsimp only
  rw [hdestination]

/-- **A message starts.** -/
structure Begun (manager : SigNetworkManager) (m : SigUpperTransportModel) (s t : Sender) :
    Prop where
  queues : t.queues = s.queues
  models : t.models = s.models
  log : t.log = s.log ++ [.started m] ++ [.round m.segments]
  outgoing : t.outgoingSegments =
    Function.update s.outgoingSegments m.pdu.sequenceZero (some (m.segments.map some))
  timers : t.segmentTransmissionTimers = Function.update s.segmentTransmissionTimers
    m.pdu.sequenceZero (some (manager.retransmissionLimit - 1))

theorem begun_sendSegmented {m : SigUpperTransportModel}
    (hunicast : isUnicastAddress m.pdu.destination = true) (hcount : 0 < m.pdu.count)
    (s : Sender) : Begun manager m s (sendSegmentedUpperTransportPdu manager didSend' m s) := by
  have hall : m.notAcked (fun _ => false) = m.segments := by
    rw [SigUpperTransportModel.notAcked, ← SigUpperTransportModel.segments_map_some]
    simp
  have hleft : m.notAcked (fun _ => false) ≠ [] := hall ▸ segments_ne_nil hcount
  unfold sendSegmentedUpperTransportPdu
  dsimp only
  have harray : ((startTXTimeout m.pdu.destination m.pdu.sequenceZero
      (s.write (.started m))).setOutgoing m.pdu.sequenceZero
        (some (m.segments.map some))).outgoingSegments m.pdu.sequenceZero =
      some (m.masked fun _ => false) := by
    rw [outgoingSegments_setOutgoing_self, SigUpperTransportModel.segments_map_some]
  obtain ⟨sno, network, hsend⟩ :=
    sendSegments_unicast manager didSend' manager.retransmissionLimit harray hleft hunicast
  rw [hsend, if_pos (retransmissionLimit_pos manager), hall]
  exact ⟨rfl, rfl, rfl, rfl, rfl⟩

/-! ### The flow of a queue -/

/-- A started message with segments to be acknowledged and a timer for the next round. -/
structure Outstanding (s : Sender) (m : SigUpperTransportModel) : Prop where
  started : m ∈ startedModels s.log
  segments : ∃ seg, firstNotAcknowledgedFrom (s.outgoing m.pdu.sequenceZero) = some seg ∧
    seg.number = m.number
  timer : (s.segmentTransmissionTimers m.pdu.sequenceZero).isSome = true

theorem Outstanding.congr {m : SigUpperTransportModel} (h : Outstanding s m)
    (hlog : startedModels s.log ⊆ startedModels t.log)
    (houtgoing : t.outgoingSegments m.pdu.sequenceZero = s.outgoingSegments m.pdu.sequenceZero)
    (htimer : t.segmentTransmissionTimers m.pdu.sequenceZero =
      s.segmentTransmissionTimers m.pdu.sequenceZero) : Outstanding t m := by
  refine ⟨hlog h.started, ?_, htimer ▸ h.timer⟩
  unfold outgoing
  rw [houtgoing]
  exact h.segments

/-- What holds of all queues, but for the head of those to the destinations in `but`. -/
structure FlowBut (but : BitVec 16 → Prop) (s : Sender) : Prop where
  unicast : ∀ d, ∀ m ∈ s.queues d,
    m.pdu.destination = d ∧ isUnicastAddress d = true ∧ 0 < m.pdu.count
  head : ∀ d m queue, ¬ but d → s.queues d = m :: queue → Outstanding s m
  belongs : ∀ z array, s.outgoingSegments z = some array →
    ∃ d m queue, ¬ but d ∧ s.queues d = m :: queue ∧ m.pdu.sequenceZero = z
  distinct : ∀ d d' m m', m ∈ s.queues d → m' ∈ s.queues d' →
    m.pdu.sequenceZero = m'.pdu.sequenceZero → m = m'
  kept : ∀ m ∈ enqueuedModels s.log, .cancelled m ∈ s.log ∨ m ∈ startedModels s.log ∨
    m ∈ (s.queues m.pdu.destination).tail ∨
      (but m.pdu.destination ∧ m ∈ s.queues m.pdu.destination)

def Flow (s : Sender) : Prop := FlowBut (fun _ => False) s

/-- An empty queue has no head. -/
theorem FlowBut.flow_of_nil {d : BitVec 16} (h : FlowBut (· = d) s) (hnil : s.queues d = []) :
    Flow s where
  unicast := h.unicast
  head := by
    intro d' m queue _ hqueue
    refine h.head d' m queue (fun hd => ?_) hqueue
    rw [hd, hnil] at hqueue
    cases hqueue
  belongs := by
    intro z array harray
    obtain ⟨d', m, queue, -, hrest⟩ := h.belongs z array harray
    exact ⟨d', m, queue, id, hrest⟩
  distinct := h.distinct
  kept := by
    intro m hm
    rcases h.kept m hm with hcancelled | hstarted | htail | hhead
    · exact .inl hcancelled
    · exact .inr (.inl hstarted)
    · exact .inr (.inr (.inl htail))
    · rw [hhead.1, hnil] at hhead
      exact absurd hhead.2 List.not_mem_nil

/-- A message is in the queue of its own destination only. -/
theorem FlowBut.destination_eq {but : BitVec 16 → Prop} (h : FlowBut but s) {d d' : BitVec 16}
    {m m' : SigUpperTransportModel} (hm : m ∈ s.queues d) (hm' : m' ∈ s.queues d')
    (hz : m.pdu.sequenceZero = m'.pdu.sequenceZero) : d = d' := by
  have hsame := h.distinct d d' m m' hm hm' hz
  rw [← (h.unicast d m hm).1, ← (h.unicast d' m' hm').1, hsame]

/-- **The head starts.** -/
theorem FlowBut.flow_of_begun {d : BitVec 16} {m : SigUpperTransportModel}
    {queue : List SigUpperTransportModel} (h : FlowBut (· = d) s)
    (hqueue : s.queues d = m :: queue) (hbegun : Begun manager m s t) : Flow t := by
  have hm : m ∈ s.queues d := hqueue ▸ List.mem_cons_self
  obtain ⟨-, -, hcount⟩ := h.unicast d m hm
  have hstarted : startedModels t.log = startedModels s.log ++ [m] := by
    rw [hbegun.log, startedModels_append_of_ne rfl, startedModels_append_started]
  have hsub : startedModels s.log ⊆ startedModels t.log := by
    rw [hstarted]
    exact List.subset_append_left ..
  have henqueued : enqueuedModels t.log = enqueuedModels s.log := by
    rw [hbegun.log, enqueuedModels_append_of_ne rfl, enqueuedModels_append_of_ne rfl]
  refine ⟨?_, ?_, ?_, ?_, ?_⟩
  · rw [hbegun.queues]
    exact h.unicast
  · intro d' m' queue' _ hqueue'
    rw [hbegun.queues] at hqueue'
    by_cases hd : d' = d
    · subst hd
      rw [hqueue] at hqueue'
      cases hqueue'
      refine ⟨?_, ?_, ?_⟩
      · rw [hstarted]
        exact List.mem_append_right _ List.mem_cons_self
      · have harray : t.outgoing m.pdu.sequenceZero = m.segments.map some :=
          outgoing_eq (by rw [hbegun.outgoing, Function.update_self])
        obtain ⟨seg, rest, hsegments⟩ := List.exists_cons_of_ne_nil (segments_ne_nil hcount)
        refine ⟨seg, ?_, ?_⟩
        · rw [harray, hsegments]
          rfl
        · exact (SigUpperTransportModel.of_mem_segments
            (hsegments ▸ List.mem_cons_self : seg ∈ m.segments)).1
      · rw [hbegun.timers, Function.update_self]
        rfl
    · have hz : m'.pdu.sequenceZero ≠ m.pdu.sequenceZero :=
        fun hz => hd (h.destination_eq (hqueue' ▸ List.mem_cons_self) hm hz)
      refine (h.head d' m' queue' hd hqueue').congr hsub ?_ ?_
      · rw [hbegun.outgoing, Function.update_of_ne hz]
      · rw [hbegun.timers, Function.update_of_ne hz]
  · intro z array harray
    rw [hbegun.queues]
    by_cases hz : z = m.pdu.sequenceZero
    · exact ⟨d, m, queue, id, hqueue, hz.symm⟩
    · rw [hbegun.outgoing, Function.update_of_ne hz] at harray
      obtain ⟨d', m', queue', -, hrest⟩ := h.belongs z array harray
      exact ⟨d', m', queue', id, hrest⟩
  · rw [hbegun.queues]
    exact h.distinct
  · intro m' hm'
    rw [henqueued] at hm'
    rw [hbegun.queues]
    rcases h.kept m' hm' with hcancelled | hbefore | htail | hhead
    · rw [hbegun.log, List.append_assoc]
      exact .inl (List.mem_append_left _ hcancelled)
    · exact .inr (.inl (hsub hbefore))
    · exact .inr (.inr (.inl htail))
    · rw [hhead.1, hqueue] at hhead
      rcases List.mem_cons.mp hhead.2 with hself | hwaits
      · rw [hself, hstarted]
        exact .inr (.inl (List.mem_append_right _ List.mem_cons_self))
      · refine .inr (.inr (.inl ?_))
        rw [(h.unicast d m' (hqueue ▸ List.mem_cons_of_mem _ hwaits)).1, hqueue]
        exact hwaits

/-! ### A transmission ends -/

/-- Outputs that neither enqueue nor start. -/
structure Quiet (log log' : List Output) : Prop where
  subset : log ⊆ log'
  enqueued : enqueuedModels log' = enqueuedModels log
  started : startedModels log' = startedModels log

theorem Quiet.refl (log : List Output) : Quiet log log := ⟨fun _ h => h, rfl, rfl⟩

theorem Quiet.append {log log' : List Output} (h : Quiet log log') {o : Output}
    (henqueued : o.enqueued? = none) (hstarted : o.started? = none) :
    Quiet log (log' ++ [o]) where
  subset := fun _ ho => List.mem_append_left _ (h.subset ho)
  enqueued := (enqueuedModels_append_of_ne henqueued).trans h.enqueued
  started := (startedModels_append_of_ne hstarted).trans h.started

/-- A state that differs from another one in the segments and the timer of one SeqZero, and in
such outputs. -/
structure Touched (z : BitVec 16) (s t : Sender) : Prop where
  queues : t.queues = s.queues
  log : Quiet s.log t.log
  outgoing : ∀ z', z' ≠ z → t.outgoingSegments z' = s.outgoingSegments z'
  timers : ∀ z', z' ≠ z → t.segmentTransmissionTimers z' = s.segmentTransmissionTimers z'

/-- A head whose transmission has ended is off its queue, with its segments. -/
theorem FlowBut.popped {d : BitVec 16} {m : SigUpperTransportModel}
    {queue : List SigUpperTransportModel} (h : Flow s) (hqueue : s.queues d = m :: queue)
    (htouched : Touched m.pdu.sequenceZero s t) :
    FlowBut (· = d) ((t.setQueue d queue).setOutgoing m.pdu.sequenceZero none) := by
  have hm : m ∈ s.queues d := hqueue ▸ List.mem_cons_self
  have hself : ((t.setQueue d queue).setOutgoing m.pdu.sequenceZero none).queues d = queue :=
    queues_setQueue_self t d queue
  have hother : ∀ {d'}, d' ≠ d →
      ((t.setQueue d queue).setOutgoing m.pdu.sequenceZero none).queues d' = s.queues d' := by
    intro d' hd
    exact (queues_setQueue_of_ne t hd queue).trans (congrFun htouched.queues d')
  have hmem : ∀ {d' m'},
      m' ∈ ((t.setQueue d queue).setOutgoing m.pdu.sequenceZero none).queues d' →
      m' ∈ s.queues d' := by
    intro d' m' hm'
    by_cases hd : d' = d
    · rw [hd, hself] at hm'
      rw [hd, hqueue]
      exact List.mem_cons_of_mem _ hm'
    · exact hother hd ▸ hm'
  refine ⟨?_, ?_, ?_, ?_, ?_⟩
  · exact fun d' m' hm' => h.unicast d' m' (hmem hm')
  · intro d' m' queue' hd hqueue'
    rw [hother hd] at hqueue'
    have hz : m'.pdu.sequenceZero ≠ m.pdu.sequenceZero :=
      fun hz => hd (h.destination_eq (hqueue' ▸ List.mem_cons_self) hm hz)
    refine (h.head d' m' queue' id hqueue').congr (fun _ h => htouched.log.started ▸ h) ?_ ?_
    · exact (outgoingSegments_setOutgoing_of_ne _ hz none).trans (htouched.outgoing _ hz)
    · exact htouched.timers _ hz
  · intro z array harray
    by_cases hz : z = m.pdu.sequenceZero
    · rw [hz, outgoingSegments_setOutgoing_self] at harray
      cases harray
    · rw [outgoingSegments_setOutgoing_of_ne _ hz] at harray
      obtain ⟨d', m', queue', -, hqueue', hz'⟩ :=
        h.belongs z array ((htouched.outgoing z hz).symm.trans harray)
      have hd : d' ≠ d := by
        intro hd
        rw [hd, hqueue] at hqueue'
        cases hqueue'
        exact hz hz'.symm
      exact ⟨d', m', queue', hd, (hother hd).trans hqueue', hz'⟩
  · exact fun d' d'' m' m'' hm' hm'' => h.distinct d' d'' m' m'' (hmem hm') (hmem hm'')
  · intro m' hm'
    rcases h.kept m' (htouched.log.enqueued ▸ hm') with hcancelled | hbefore | htail | hhead
    · exact .inl (htouched.log.subset hcancelled)
    · exact .inr (.inl (htouched.log.started ▸ hbefore))
    · by_cases hd : m'.pdu.destination = d
      · refine .inr (.inr (.inr ⟨hd, ?_⟩))
        rw [hd, hqueue] at htail
        rw [hd, hself]
        exact htail
      · rw [hother hd]
        exact .inr (.inr (.inl htail))
    · exact absurd hhead.1 id

theorem Begun.setOutgoing {m : SigUpperTransportModel} (h : Begun manager m s t) {z : BitVec 16}
    (hz : z ≠ m.pdu.sequenceZero) :
    Begun manager m (s.setOutgoing z none) (t.setOutgoing z none) := by
  refine ⟨h.queues, h.models, h.log, ?_, h.timers⟩
  change Function.update t.outgoingSegments z none = _
  rw [h.outgoing]
  exact Function.update_comm hz.symm ..

/-- The callback takes the head off, and starts the next message. -/
theorem didSend_begun (manager : SigNetworkManager) {d : BitVec 16} {m : SigUpperTransportModel}
    {queue : List SigUpperTransportModel} (hqueue : t.queues d = m :: queue)
    (hunicast : ∀ next ∈ queue, next.pdu.destination = d ∧ isUnicastAddress d = true ∧
      0 < next.pdu.count) :
    queue = [] ∧ didSend manager d t = t.setQueue d [] ∨
      ∃ next rest, queue = next :: rest ∧
        Begun manager next (t.setQueue d queue) (didSend manager d t) := by
  unfold didSend
  rw [hqueue]
  cases queue with
  | nil => exact .inl ⟨rfl, rfl⟩
  | cons next rest =>
    obtain ⟨hown, hu, hcount⟩ := hunicast next List.mem_cons_self
    exact .inr ⟨next, rest, rfl, begun_sendSegmented (hown.symm ▸ hu) hcount _⟩

/-- **The next message starts.** -/
theorem flow_didSend {d : BitVec 16} {m : SigUpperTransportModel}
    {queue : List SigUpperTransportModel} (hqueue : t.queues d = m :: queue)
    (hpopped : FlowBut (· = d) (t.setQueue d queue)) : Flow (didSend manager d t) := by
  have hself : (t.setQueue d queue).queues d = queue := queues_setQueue_self ..
  have hall : ∀ next ∈ queue, next.pdu.destination = d ∧ isUnicastAddress d = true ∧
      0 < next.pdu.count := fun next hnext => hpopped.unicast d next (by rwa [hself])
  rcases didSend_begun manager hqueue hall with
    ⟨hnil, hdone⟩ | ⟨next, rest, hcons, hbegun⟩
  · rw [hdone]
    subst hnil
    exact hpopped.flow_of_nil hself
  · exact hpopped.flow_of_begun (hself.trans hcons) hbegun

theorem setOutgoing_none_eq {z : BitVec 16} (h : s.outgoingSegments z = none) :
    s.setOutgoing z none = s := by
  unfold setOutgoing
  rw [← h, Function.update_eq_self]

/-- The same, behind a message whose segments have gone. -/
theorem flow_delivered {d : BitVec 16} {m : SigUpperTransportModel}
    {queue : List SigUpperTransportModel} (h : Flow s) (hqueue : s.queues d = m :: queue)
    (htouched : Touched m.pdu.sequenceZero s t)
    (hnone : t.outgoingSegments m.pdu.sequenceZero = none) : Flow (didSend manager d t) := by
  have hpopped := FlowBut.popped h hqueue htouched
  rw [setOutgoing_none_eq (s := t.setQueue d queue) hnone] at hpopped
  exact flow_didSend ((congrFun htouched.queues d).trans hqueue) hpopped

/-- The same, where the segments of the last message go behind the callback. -/
theorem flow_advance {d : BitVec 16} {m : SigUpperTransportModel}
    {queue : List SigUpperTransportModel} (h : Flow s) (hqueue : s.queues d = m :: queue)
    (hsorted : (m :: queue).Pairwise (·.number < ·.number))
    (htouched : Touched m.pdu.sequenceZero s t) :
    Flow ((didSend manager d t).setOutgoing m.pdu.sequenceZero none) := by
  have hpopped := FlowBut.popped h hqueue htouched
  have hself : ((t.setQueue d queue).setOutgoing m.pdu.sequenceZero none).queues d = queue :=
    queues_setQueue_self t d queue
  have hall : ∀ next ∈ queue, next.pdu.destination = d ∧ isUnicastAddress d = true ∧
      0 < next.pdu.count := fun next hnext => hpopped.unicast d next (by rwa [hself])
  rcases didSend_begun manager ((congrFun htouched.queues d).trans hqueue) hall with
    ⟨hnil, hdone⟩ | ⟨next, rest, hcons, hbegun⟩
  · rw [hdone]
    subst hnil
    exact hpopped.flow_of_nil hself
  · have hnext : next ∈ queue := hcons ▸ List.mem_cons_self
    have hz : m.pdu.sequenceZero ≠ next.pdu.sequenceZero := by
      intro hz
      have hsame := h.distinct d d m next (hqueue ▸ List.mem_cons_self)
        (hqueue ▸ List.mem_cons_of_mem _ hnext) hz
      exact Nat.lt_irrefl _ (hsame ▸ (List.pairwise_cons.mp hsorted).1 next hnext)
    exact hpopped.flow_of_begun (hself.trans hcons) (hbegun.setOutgoing hz)

/-! ### Nothing ends -/

/-- The same queues, with each head still outstanding. -/
theorem Flow.congr (h : Flow s) (hqueues : t.queues = s.queues) (hlog : Quiet s.log t.log)
    (hhead : ∀ d m queue, s.queues d = m :: queue → Outstanding s m → Outstanding t m)
    (hbelongs : ∀ z array, t.outgoingSegments z = some array → s.outgoingSegments z ≠ none) :
    Flow t := by
  refine ⟨hqueues ▸ h.unicast, ?_, ?_, hqueues ▸ h.distinct, ?_⟩
  · intro d m queue _ hqueue
    rw [hqueues] at hqueue
    exact hhead d m queue hqueue (h.head d m queue id hqueue)
  · intro z array harray
    obtain ⟨array', harray'⟩ := Option.ne_none_iff_exists'.mp (hbelongs z array harray)
    rw [hqueues]
    exact h.belongs z array' harray'
  · intro m hm
    rw [hqueues, hlog.started]
    exact (h.kept m (hlog.enqueued ▸ hm)).imp_left fun hcancelled => hlog.subset hcancelled

/-- Only outputs, sequences and the like. -/
theorem Flow.quiet (h : Flow s) (hqueues : t.queues = s.queues) (hlog : Quiet s.log t.log)
    (houtgoing : t.outgoingSegments = s.outgoingSegments)
    (htimers : t.segmentTransmissionTimers = s.segmentTransmissionTimers) : Flow t := by
  refine h.congr hqueues hlog (fun d m queue _ hhead => ?_) ?_
  · exact hhead.congr (fun _ h => hlog.started ▸ h) (houtgoing ▸ rfl) (htimers ▸ rfl)
  · intro z array harray hnone
    rw [houtgoing, hnone] at harray
    cases harray

/-- A SeqZero of no head has nothing and gets nothing. -/
theorem Flow.free (h : Flow s) {z : BitVec 16}
    (hfree : ∀ d m queue, s.queues d = m :: queue → m.pdu.sequenceZero ≠ z)
    (htouched : Touched z s t) (hnone : t.outgoingSegments z = none) : Flow t := by
  refine h.congr htouched.queues htouched.log ?_ ?_
  · intro d m queue hqueue hhead
    have hz := hfree d m queue hqueue
    exact hhead.congr (fun _ h => htouched.log.started ▸ h) (htouched.outgoing _ hz)
      (htouched.timers _ hz)
  · intro z' array harray hbefore
    by_cases hz : z' = z
    · rw [hz, hnone] at harray
      cases harray
    · rw [htouched.outgoing z' hz, hbefore] at harray
      cases harray

/-- The head of a queue in another round. -/
theorem Flow.resent (h : Flow s) {d : BitVec 16} {m : SigUpperTransportModel}
    {queue : List SigUpperTransportModel} (hqueue : s.queues d = m :: queue)
    (htouched : Touched m.pdu.sequenceZero s t) (houtstanding : Outstanding t m) : Flow t := by
  refine h.congr htouched.queues htouched.log ?_ ?_
  · intro d' m' queue' hqueue' hhead
    by_cases hz : m'.pdu.sequenceZero = m.pdu.sequenceZero
    · rw [h.distinct d' d m' m (hqueue' ▸ List.mem_cons_self) (hqueue ▸ List.mem_cons_self) hz]
      exact houtstanding
    · exact hhead.congr (fun _ h => htouched.log.started ▸ h) (htouched.outgoing _ hz)
        (htouched.timers _ hz)
  · intro z array harray hbefore
    by_cases hz : z = m.pdu.sequenceZero
    · obtain ⟨seg, hseg, -⟩ := (h.head d m queue id hqueue).segments
      rw [outgoing_eq_nil (hz ▸ hbefore)] at hseg
      cases hseg
    · rw [htouched.outgoing z hz, hbefore] at harray
      cases harray

/-! ### Acknowledgments and timers -/

/-- What is found under a SeqZero is the head of a queue. -/
theorem Flow.head_of_first (h : Flow s) (hshape : Shape counts s) {z : BitVec 16}
    {seg : OutgoingSegment} (hfirst : firstNotAcknowledgedFrom (s.outgoing z) = some seg) :
    ∃ m queue, s.queues m.pdu.destination = m :: queue ∧ m.pdu.sequenceZero = z ∧
      seg.segment.destination = m.pdu.destination ∧ seg.number = m.number ∧
      s.outgoingSegments z = some (m.masked (ackedBy counts m s.log)) ∧
      m.notAcked (ackedBy counts m s.log) ≠ [] ∧
      isUnicastAddress m.pdu.destination = true := by
  cases harray : s.outgoingSegments z with
  | none =>
    rw [outgoing_eq_nil harray] at hfirst
    cases hfirst
  | some array =>
    obtain ⟨m', hm', -, hmasked, -⟩ := hshape.outgoing z array harray
    obtain ⟨d, m, queue, -, hqueue, hz⟩ := h.belongs z array harray
    have hhead := h.head d m queue id hqueue
    obtain ⟨seg', hseg', hnumber⟩ := hhead.segments
    rw [hz, hfirst] at hseg'
    cases hseg'
    rw [outgoing_eq harray, hmasked] at hfirst
    obtain ⟨hnumber', hdestination, -⟩ := of_firstNotAcknowledged hfirst
    have hsame : m' = m := hshape.entries.eq_of_number
      (hshape.entries.enqueued_of_started hm')
      (hshape.entries.enqueued_of_started hhead.started) (hnumber'.symm.trans hnumber)
    subst hsame
    obtain ⟨hown, hunicast, -⟩ := h.unicast d m' (hqueue ▸ List.mem_cons_self)
    subst hown
    refine ⟨m', queue, hqueue, hz, hdestination, hnumber, congrArg some hmasked, ?_, hunicast⟩
    exact List.ne_nil_of_mem (List.mem_of_mem_head? hfirst)

/-- What has no segment is of no head. -/
theorem Flow.none_of_first (h : Flow s) {z : BitVec 16}
    (hfirst : firstNotAcknowledgedFrom (s.outgoing z) = none) :
    s.outgoingSegments z = none ∧
      ∀ d m queue, s.queues d = m :: queue → m.pdu.sequenceZero ≠ z := by
  have hfree : ∀ d m queue, s.queues d = m :: queue → m.pdu.sequenceZero ≠ z := by
    intro d m queue hqueue hz
    obtain ⟨seg, hseg, -⟩ := (h.head d m queue id hqueue).segments
    rw [hz, hfirst] at hseg
    cases hseg
  refine ⟨Option.eq_none_iff_forall_ne_some.mpr fun array harray => ?_, hfree⟩
  obtain ⟨d, m, queue, -, hqueue, hz⟩ := h.belongs z array harray
  exact hfree d m queue hqueue hz

/-- Every acknowledgment counts. -/
def anyAck : Counts := fun _ _ => true

/-- A state after another output, sequences and a timer. -/
theorem Touched.round {z : BitVec 16} (h : Touched z s t) (segments : List OutgoingSegment)
    (sno : BitVec 32) (network : List (BitVec 32 × LowerPdu)) (limit : Option Nat) :
    Touched z s ((t.looped segments sno network).setTransmissionTimer z limit) where
  queues := h.queues
  log := h.log.append rfl rfl
  outgoing := h.outgoing
  timers := fun z' hz => (setTransmissionTimer_of_ne _ hz limit).trans (h.timers z' hz)

/-- **A round of the head**, or the end at its limit. -/
theorem flow_sendSegments (h : Flow s) {d : BitVec 16} {m : SigUpperTransportModel}
    {queue : List SigUpperTransportModel} (hqueue : s.queues d = m :: queue)
    (hsorted : (m :: queue).Pairwise (·.number < ·.number))
    (htouched : Touched m.pdu.sequenceZero s t) {acked : Nat → Bool}
    (harray : t.outgoingSegments m.pdu.sequenceZero = some (m.masked acked))
    (hleft : m.notAcked acked ≠ []) (limit : Nat) :
    Flow (sendSegments manager (didSend manager) m.pdu.sequenceZero limit t) := by
  obtain ⟨hown, hunicast, -⟩ := h.unicast d m (hqueue ▸ List.mem_cons_self)
  subst hown
  obtain ⟨sno, network, hsend⟩ :=
    sendSegments_unicast manager (didSend manager) limit harray hleft hunicast
  rw [hsend]
  split_ifs with hlimit
  · have hround := htouched.round (m.notAcked acked) sno network (some (limit - 1))
    refine h.resent hqueue hround ⟨?_, ?_, ?_⟩
    · exact hround.log.started ▸ (h.head _ m queue id hqueue).started
    · obtain ⟨seg, hseg⟩ := Option.isSome_iff_exists.mp (List.isSome_head?.mpr hleft)
      refine ⟨seg, ?_, (SigUpperTransportModel.of_mem_notAcked
        (List.mem_of_mem_head? hseg)).1⟩
      change firstNotAcknowledgedFrom (t.outgoing m.pdu.sequenceZero) = some seg
      rw [outgoing_eq harray]
      exact hseg
    · rw [setTransmissionTimer_self]
      rfl
  · exact flow_advance h hqueue hsorted (htouched.round _ sno network none)

theorem flow_acknowledgment (ack : SigSegmentAcknowledgmentMessage) (hshape : Shape anyAck s)
    (h : Flow s)
    (hbusy : ack.isBusy = true → firstNotAcknowledgedFrom (s.outgoing ack.sequenceZero) = none) :
    Flow (handleSegmentAcknowledgment manager ack s) := by
  have hlog : Quiet s.log (s.log ++ [.acknowledged ack]) := (Quiet.refl _).append rfl rfl
  unfold handleSegmentAcknowledgment
  dsimp only
  rw [show (s.write (.acknowledged ack)).outgoing ack.sequenceZero = s.outgoing ack.sequenceZero
    from rfl]
  cases hfirst : firstNotAcknowledgedFrom (s.outgoing ack.sequenceZero) with
  | none => exact h.quiet rfl hlog rfl rfl
  | some seg =>
    obtain ⟨m, queue, hqueue, hz, hdestination, hnumber, harray, -, hunicast⟩ :=
      h.head_of_first hshape hfirst
    have hsorted := hshape.sorted m.pdu.destination
    rw [hqueue] at hsorted
    have hhonoured : Honoured anyAck s ack := fun _ _ _ _ _ _ => rfl
    have hcleared := masked_acknowledged hhonoured hz (outgoing_eq harray)
    have hnow : ((s.write (.acknowledged ack)).setTransmissionTimer ack.sequenceZero
        none).outgoing ack.sequenceZero = m.masked (ackedBy anyAck m s.log) := outgoing_eq harray
    dsimp only
    rw [if_neg (fun hb => by rw [hbusy hb] at hfirst; cases hfirst), hnow, hcleared, ← hz]
    by_cases hmore : segmentsArrayHasMore
        (m.masked (ackedBy anyAck m (s.log ++ [.acknowledged ack]))) = true
    · rw [if_pos hmore]
      obtain ⟨seg', hseg'⟩ := Option.isSome_iff_exists.mp (hasMore_eq _ ▸ hmore)
      have htouched : Touched m.pdu.sequenceZero s
          (((s.write (.acknowledged ack)).setTransmissionTimer m.pdu.sequenceZero none).setOutgoing
            m.pdu.sequenceZero (some (m.masked (ackedBy anyAck m
              (s.log ++ [.acknowledged ack]))))) :=
        ⟨rfl, hlog, fun z hz => outgoingSegments_setOutgoing_of_ne _ hz _,
          fun z hz => setTransmissionTimer_of_ne (s.write (.acknowledged ack)) hz none⟩
      exact flow_sendSegments h hqueue hsorted htouched (outgoingSegments_setOutgoing_self ..)
        (List.ne_nil_of_mem (List.mem_of_mem_head? hseg')) _
    · rw [if_neg hmore, hdestination]
      refine flow_delivered h hqueue ⟨rfl, hlog.append rfl rfl, ?_, ?_⟩ ?_
      · exact fun z hz => (Function.update_of_ne hz ..).trans (Function.update_of_ne hz ..)
      · exact fun z hz => setTransmissionTimer_of_ne (s.write (.acknowledged ack)) hz none
      · exact outgoingSegments_setOutgoing_self ..

theorem flow_transmissionTimer (sequenceZero : BitVec 16) (hshape : Shape anyAck s) (h : Flow s) :
    Flow (transmissionTimer manager sequenceZero s) := by
  unfold transmissionTimer
  split
  · exact h
  · next limit _ =>
    have htouched : Touched sequenceZero s (s.setTransmissionTimer sequenceZero none) :=
      ⟨rfl, Quiet.refl _, fun _ _ => rfl, fun z hz => Function.update_of_ne hz ..⟩
    cases hfirst : firstNotAcknowledgedFrom (s.outgoing sequenceZero) with
    | none =>
      obtain ⟨hnone, hfree⟩ := h.none_of_first hfirst
      unfold sendSegments
      dsimp only
      rw [if_pos (outgoing_eq_nil (s := setTransmissionTimer _ _ _) hnone)]
      exact h.free hfree htouched hnone
    | some seg =>
      obtain ⟨m, queue, hqueue, hz, -, -, harray, hleft, -⟩ := h.head_of_first hshape hfirst
      have hsorted := hshape.sorted m.pdu.destination
      rw [hqueue] at hsorted
      subst hz
      exact flow_sendSegments h hqueue hsorted htouched harray hleft limit

theorem flow_txTimeout (address sequenceZero : BitVec 16) (hshape : Shape anyAck s) (h : Flow s) :
    Flow (txTimeout manager address sequenceZero s) := by
  unfold txTimeout
  dsimp only
  split_ifs
  · rw [show (s.removeIncompleteTimer (getKey address sequenceZero)).outgoing sequenceZero =
      s.outgoing sequenceZero from rfl]
    have htouched : Touched sequenceZero s
        (s.removeIncompleteTimer (getKey address sequenceZero)) :=
      ⟨rfl, Quiet.refl _, fun _ _ => rfl, fun _ _ => rfl⟩
    cases hfirst : firstNotAcknowledgedFrom (s.outgoing sequenceZero) with
    | none =>
      obtain ⟨hnone, hfree⟩ := h.none_of_first hfirst
      dsimp only
      rw [setOutgoing_none_eq (s := removeIncompleteTimer _ _) hnone]
      exact h.free hfree htouched hnone
    | some seg =>
      obtain ⟨m, queue, hqueue, hz, hdestination, -⟩ := h.head_of_first hshape hfirst
      have hsorted := hshape.sorted m.pdu.destination
      rw [hqueue] at hsorted
      subst hz
      dsimp only
      rw [hdestination]
      exact flow_advance h hqueue hsorted htouched
  · exact h

end Sender

end LowerTransport

end PirMesh
