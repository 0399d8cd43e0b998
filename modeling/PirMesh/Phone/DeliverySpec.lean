import PirMesh.Phone.QueueShape

/-! # Phone — Delivery means acknowledged (`handleSegmentAcknowledgmentMessage:`)

An acknowledgment is looked up by its SeqZero alone.  Where those that name a segment come from
its destination (`FromDestination`), a message is reported once, when its destination has
acknowledged each segment, and each round sends the segments that it has not. -/

namespace PirMesh

open Run

namespace LowerTransport

open Sender

variable {manager : SigNetworkManager} {s : Sender}

/-! ### What a round sends -/

/-- With the bearer open, each segment of a round leaves. -/
theorem network_sendRound (hopen : s.isOpen = true) {segments : List OutgoingSegment}
    (hremote : ∀ seg ∈ segments,
      manager.isLocalUnicastAddress seg.segment.destination = false) :
    (sendRound manager segments s).network.map Prod.snd =
      s.network.map Prod.snd ++ segments.map LowerPdu.segment := by
  have hloop : ∀ (segments : List OutgoingSegment) (s : Sender), s.isOpen = true →
      (∀ seg ∈ segments, manager.isLocalUnicastAddress seg.segment.destination = false) →
      (segments.foldl (fun s seg => sendLowerTransportPdu manager (.segment seg) s) s).network.map
        Prod.snd = s.network.map Prod.snd ++ segments.map LowerPdu.segment := by
    intro segments
    induction segments with
    | nil => exact fun s _ _ => (List.append_nil _).symm
    | cons seg segments ih =>
      intro s hopen hremote
      have hsend : sendLowerTransportPdu manager (.segment seg) s =
          { s with
            sno := updateSequenceNumber s.sno (s.sno + 1)
            network := s.network ++ [(s.sno, .segment seg)] } := by
        have hseg := hremote seg List.mem_cons_self
        unfold sendLowerTransportPdu
        rw [if_pos hopen, if_neg (by simpa [LowerPdu.destination] using hseg)]
      rw [List.foldl_cons, ih _ (hsend ▸ hopen) fun seg hseg =>
        hremote seg (List.mem_cons_of_mem _ hseg), hsend]
      simp
  exact hloop segments (s.write (.round segments)) hopen hremote

/-! ### The condition -/

def fromDestination : Counts := fun ack m => decide (ack.source = m.pdu.destination)

/-- An acknowledgment that names a segment still to be acknowledged comes from its destination. -/
def FromDestination (s : Sender) : Event → Prop
  | .acknowledgment ack => ∀ i < (s.outgoing ack.sequenceZero).length,
      ack.isSegmentReceived i = true → ∀ seg ∈ (s.outgoing ack.sequenceZero).getD i none,
        ack.source = seg.segment.destination
  | _ => True

instance : ∀ (s : Sender) (e : Event), Decidable (FromDestination s e)
  | s, .acknowledgment ack =>
    inferInstanceAs (Decidable (∀ i < (s.outgoing ack.sequenceZero).length,
      ack.isSegmentReceived i = true → ∀ seg ∈ (s.outgoing ack.sequenceZero).getD i none,
        ack.source = seg.segment.destination))
  | _, .sendAccessPdu _ _ _ | _, .transmissionTimer _ | _, .txTimeout _ _ | _, .cancel _
  | _, .sendAck _ _ | _, .received _ | _, .bearer _ => inferInstanceAs (Decidable True)

theorem honouredStep_of_fromDestination {e : Event} (h : FromDestination s e) :
    HonouredStep fromDestination s e := by
  cases e with
  | acknowledgment ack =>
    intro i seg hseg hreceived m hm
    obtain ⟨hi, -⟩ := List.getElem?_eq_some_iff.mp hseg
    have hmem : seg ∈ (s.outgoing ack.sequenceZero).getD i none := by
      rw [List.getD_eq_getElem?_getD, hseg]
      rfl
    exact decide_eq_true ((h i hi hreceived seg hmem).trans hm.symm)
  | sendAccessPdu | transmissionTimer | txTimeout | cancel | sendAck | received | bearer =>
    trivial

/-! ### Deliveries -/

structure Delivery (s : Sender) : Prop where
  /-- A message to a unicast address is reported at most once. -/
  once : ∀ m ∈ enqueuedModels s.log, isUnicastAddress m.pdu.destination = true →
    s.log.count (.delivered m.number) ≤ 1
  /-- Before that, its destination has acknowledged each segment. -/
  acknowledged : ∀ pre post, ∀ m ∈ enqueuedModels s.log,
    s.log = pre ++ .delivered m.number :: post → isUnicastAddress m.pdu.destination = true →
    ∀ i < m.pdu.count, ∃ ack, .acknowledged ack ∈ pre ∧
      ack.sequenceZero = m.pdu.sequenceZero ∧ ack.source = m.pdu.destination ∧
      ack.isSegmentReceived i = true
  /-- A round sends the segments that the destination has not acknowledged since the start. -/
  rounds : ∀ pre post segments, s.log = pre ++ .round segments :: post →
    ∃ m ∈ startedModels pre, segments = m.notAcked (ackedBy fromDestination m pre)

theorem count_le_one {o : Output} {log : List Output}
    (h : ∀ pre post, log = pre ++ o :: post → o ∉ pre) : log.count o ≤ 1 := by
  induction log using List.reverseRecOn with
  | nil => exact Nat.zero_le _
  | append_singleton log last ih =>
    rw [List.count_append]
    by_cases hlast : last = o
    · subst hlast
      rw [List.count_eq_zero.mpr (h log [] rfl), List.count_singleton_self]
    · rw [List.count_singleton, if_neg (by simpa using hlast)]
      refine ih fun pre post hsplit => h pre (post ++ [last]) ?_
      rw [hsplit, List.append_assoc]
      rfl

/-- The message of a delivery is the one with its number. -/
theorem entry_of_delivered {counts : Counts} (h : Shape counts s) {pre post : List Output}
    {m : SigUpperTransportModel} (hm : m ∈ enqueuedModels s.log)
    (hsplit : s.log = pre ++ .delivered m.number :: post)
    (hunicast : isUnicastAddress m.pdu.destination = true) :
    (∀ i < m.pdu.count, ackedBy counts m pre i = true) ∧ .delivered m.number ∉ pre := by
  obtain ⟨m', hm', hnumber, hacked⟩ := h.entries pre _ post hsplit
  have hstarted : m' ∈ startedModels s.log := by
    rw [hsplit]
    unfold startedModels
    rw [List.filterMap_append]
    exact List.mem_append_left _ hm'
  have hsame : m' = m :=
    h.entries.eq_of_number (h.entries.enqueued_of_started hstarted) hm hnumber
  subst hsame
  exact hacked hunicast

theorem delivery_of_shape (h : Shape fromDestination s) : Delivery s where
  once := fun m hm hunicast => count_le_one fun pre post hsplit =>
    (entry_of_delivered h hm hsplit hunicast).2
  acknowledged := by
    intro pre post m hm hsplit hunicast i hi
    obtain ⟨ack, hack, hz, hsource, hreceived⟩ :=
      exists_ack_of_ackedBy ((entry_of_delivered h hm hsplit hunicast).1 i hi)
    exact ⟨ack, hack, hz, of_decide_eq_true hsource, hreceived⟩
  rounds := fun pre post segments hsplit => h.entries pre _ post hsplit

/-- A message to 2, and an acknowledgment from 3 with its SeqZero. -/
def foreignRun : Sender :=
  [Event.sendAccessPdu (longPdu 2) false false, .acknowledgment ⟨3, 1, 5, 3⟩].foldl
    (next sampleManager) (Sender.init 5)

end LowerTransport

end PirMesh
