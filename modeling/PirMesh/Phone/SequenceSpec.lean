import Mathlib.Algebra.GroupWithZero.Nat
import Mathlib.Data.BitVec
import PirMesh.Library.Run
import PirMesh.Phone.SegmentQueue

/-! # Phone — Sequence numbers of what is sent (`SigNetworkLayer.m`, `SigUpperTransportLayer.m`)

The counter moves where a network PDU leaves, and an access PDU only reads it.  So network PDUs
have different sequences while the counter fits 24 bits, and access PDUs where it has moved since
the last one (`Moved`). -/

namespace PirMesh

open Run

namespace LowerTransport

/-- The counter is a signed number: it never gets to `2 ^ 31`. -/
theorem updateSequenceNumber_toNat {sno : BitVec 32} (h : sno.toNat < 2 ^ 31) (q : BitVec 32) :
    (updateSequenceNumber sno q).toNat =
      if q.toNat < 2 ^ 31 then max sno.toNat q.toNat else sno.toNat := by
  have hsno : sno.toInt = sno.toNat := BitVec.toInt_eq_toNat_of_lt (by omega)
  unfold updateSequenceNumber
  split_ifs with hslt hq hq
  · have hint : q.toInt = q.toNat := BitVec.toInt_eq_toNat_of_lt (by omega)
    rw [BitVec.slt_iff_toInt_lt] at hslt
    omega
  · rfl
  · have hint : q.toInt = q.toNat := BitVec.toInt_eq_toNat_of_lt (by omega)
    rw [BitVec.slt_iff_toInt_lt] at hslt
    omega
  · rw [BitVec.slt_iff_toInt_lt, BitVec.toInt_eq_toNat_cond q] at hslt
    omega

/-- What the counter says of the PDUs so far. -/
structure Counted (sno : BitVec 32) (network : List (BitVec 32 × LowerPdu))
    (encrypted : List SigUpperTransportPdu) : Prop where
  signed : sno.toNat < 2 ^ 31
  sent : sno.toNat ≤ 2 ^ 24 → ∀ p ∈ network, p.1.toNat < sno.toNat
  increasing : sno.toNat ≤ 2 ^ 24 → network.Pairwise (·.1.toNat < ·.1.toNat)
  below : ∀ pdu ∈ encrypted, pdu.sequence.toNat ≤ sno.toNat ∧ pdu.sequence.toNat < 2 ^ 24
  ordered : encrypted.Pairwise fun a b =>
    a.source = b.source → a.sequence.toNat < b.sequence.toNat

namespace Counted

variable {sno : BitVec 32} {network : List (BitVec 32 × LowerPdu)}
variable {encrypted : List SigUpperTransportPdu}

/-- The counter goes up. -/
theorem update (h : Counted sno network encrypted) (q : BitVec 32) :
    Counted (updateSequenceNumber sno q) network encrypted := by
  have hle : sno.toNat ≤ (updateSequenceNumber sno q).toNat := by
    rw [updateSequenceNumber_toNat h.signed]
    split_ifs
    · exact Nat.le_max_left ..
    · exact Nat.le_refl _
  refine ⟨?_, ?_, ?_, ?_, h.ordered⟩
  · rw [updateSequenceNumber_toNat h.signed]
    have := h.signed
    split_ifs <;> omega
  · intro hfits p hp
    exact Nat.lt_of_lt_of_le (h.sent (Nat.le_trans hle hfits) p hp) hle
  · intro hfits
    exact h.increasing (Nat.le_trans hle hfits)
  · intro pdu hpdu
    exact ⟨Nat.le_trans (h.below pdu hpdu).1 hle, (h.below pdu hpdu).2⟩

/-- **A network PDU leaves** with the sequence that the counter had. -/
theorem sendPdu (h : Counted sno network encrypted) (pdu : LowerPdu) :
    Counted (updateSequenceNumber sno (sno + 1)) (network ++ [(sno, pdu)]) encrypted := by
  have hup := h.update (sno + 1)
  have hlt : (updateSequenceNumber sno (sno + 1)).toNat ≤ 2 ^ 24 →
      sno.toNat < (updateSequenceNumber sno (sno + 1)).toNat := by
    intro hfits
    rw [updateSequenceNumber_toNat h.signed, BitVec.toNat_add] at hfits ⊢
    have hone : (1 : BitVec 32).toNat = 1 := rfl
    have := h.signed
    split_ifs at hfits ⊢ <;> omega
  refine ⟨hup.signed, ?_, ?_, hup.below, hup.ordered⟩
  · intro hfits p hp
    rcases List.mem_append.mp hp with hold | hnew
    · exact hup.sent hfits p hold
    · rw [List.mem_singleton.mp hnew]
      exact hlt hfits
  · intro hfits
    refine List.pairwise_append.mpr ⟨hup.increasing hfits, List.pairwise_singleton .., ?_⟩
    intro a ha b hb
    rw [List.mem_singleton.mp hb]
    exact h.sent (Nat.le_of_lt (Nat.lt_of_lt_of_le (hlt hfits) hfits)) a ha

end Counted

/-! ### What every routine keeps -/

namespace Sender

variable {manager : SigNetworkManager} {s : Sender}

def CountedState (s : Sender) : Prop := Counted s.sno s.network s.encrypted

/-! The queues, the timers and the log count nothing. -/

@[simp] theorem countedState_write (output : Output) :
    (s.write output).CountedState ↔ s.CountedState := Iff.rfl

@[simp] theorem countedState_setQueue (destination : BitVec 16)
    (queue : List SigUpperTransportModel) :
    (s.setQueue destination queue).CountedState ↔ s.CountedState := Iff.rfl

@[simp] theorem countedState_setOutgoing (sequenceZero : BitVec 16)
    (segments : Option (List (Option OutgoingSegment))) :
    (s.setOutgoing sequenceZero segments).CountedState ↔ s.CountedState := Iff.rfl

@[simp] theorem countedState_setTransmissionTimer (sequenceZero : BitVec 16) (limit : Option ℕ) :
    (s.setTransmissionTimer sequenceZero limit).CountedState ↔ s.CountedState := Iff.rfl

@[simp] theorem countedState_removeIncompleteTimer (key : BitVec 32) :
    (s.removeIncompleteTimer key).CountedState ↔ s.CountedState := Iff.rfl

@[simp] theorem countedState_cancelSending (pdu : SigUpperTransportPdu) :
    (cancelSending pdu s).CountedState ↔ s.CountedState := Iff.rfl

theorem counted_send (h : s.CountedState) (pdu : LowerPdu) :
    (sendLowerTransportPdu manager pdu s).CountedState := by
  unfold sendLowerTransportPdu
  dsimp only
  split_ifs
  · exact h.update _
  · exact h.sendPdu pdu
  · exact h

theorem networkKeeps_counted : NetworkKeeps manager CountedState :=
  ⟨fun _ pdu h => counted_send h pdu, fun _ _ h => h⟩

theorem counted_sendRound (segments : List OutgoingSegment) (h : s.CountedState) :
    (sendRound manager segments s).CountedState := by
  have hloop : ∀ {s : Sender}, s.CountedState → (segments.foldl
      (fun s seg => sendLowerTransportPdu manager (.segment seg) s) s).CountedState := by
    induction segments with
    | nil => exact fun h => h
    | cons seg segments ih => exact fun h => ih (counted_send h _)
  exact hloop (s := s.write (.round segments)) h

variable {didSend' : BitVec 16 → Sender → Sender}

theorem counted_afterRound
    (hdidSend : ∀ destination s, s.CountedState → (didSend' destination s).CountedState)
    (sequenceZero : BitVec 16) (limit : Nat) (ackExpected : Bool)
    (array : List (Option OutgoingSegment)) (h : s.CountedState) :
    (afterRound didSend' sequenceZero limit ackExpected array s).CountedState := by
  unfold afterRound
  dsimp only
  split_ifs
  · exact h
  · split
    · exact hdidSend _ s h
    · exact h
  · split
    · exact h
    · exact h

theorem counted_sendSegments
    (hdidSend : ∀ destination s, s.CountedState → (didSend' destination s).CountedState)
    (sequenceZero : BitVec 16) (limit : Nat) (h : s.CountedState) :
    (sendSegments manager didSend' sequenceZero limit s).CountedState := by
  unfold sendSegments
  dsimp only
  split_ifs
  · exact h
  · refine counted_afterRound hdidSend _ _ _ _ ?_
    simpa using hdidSend _ _ (counted_sendRound _ h)
  · refine counted_afterRound hdidSend _ _ _ _ ?_
    simpa using counted_sendRound _ h

theorem counted_sendSegmented
    (hdidSend : ∀ destination s, s.CountedState → (didSend' destination s).CountedState)
    (model : SigUpperTransportModel) (h : s.CountedState) :
    (sendSegmentedUpperTransportPdu manager didSend' model s).CountedState :=
  counted_sendSegments hdidSend _ _ (s := setOutgoing _ _ _) h

theorem counted_sendNext (destination : BitVec 16) (queue : List SigUpperTransportModel) :
    ∀ {s : Sender}, s.CountedState → (sendNext manager destination queue s).CountedState := by
  induction queue with
  | nil => exact fun h => h
  | cons model queue ih =>
    exact fun h => counted_sendSegmented (fun _ s hs => ih (s := s.setQueue destination queue) hs)
      model h

theorem counted_didSend (destination : BitVec 16) (s : Sender) (h : s.CountedState) :
    (didSend manager destination s).CountedState := by
  unfold didSend
  split
  · exact h
  · exact counted_sendNext (s := s.setQueue destination _) destination _ h

theorem counted_enqueue (pdu : SigUpperTransportPdu) (h : s.CountedState) :
    (enqueue manager pdu s).CountedState := by
  unfold enqueue
  dsimp only
  split_ifs
  · exact counted_sendNext (s := setQueue _ _ _) _ _ h
  · exact h

theorem counted_cancelHandle (handle : SigMessageHandle) (h : s.CountedState) :
    (cancelHandle manager handle s).CountedState := by
  have hcancelled : ∀ (models : List SigUpperTransportModel) {s : Sender}, s.CountedState →
      (models.foldl (fun s m => s.write (.cancelled m)) s).CountedState := by
    intro models
    induction models with
    | nil => exact fun h => h
    | cons model models ih => exact fun {s} h => ih (s := s.write _) h
  unfold cancelHandle
  split
  · exact h
  · next model queue _ =>
    have hlogged := hcancelled ((model :: queue).filter handle.isOf) h
    dsimp only
    split_ifs
    · exact counted_didSend handle.destination _ (by simpa using hlogged)
    · exact hlogged

theorem counted_handleSegmentAcknowledgment (ack : SigSegmentAcknowledgmentMessage)
    (h : s.CountedState) : (handleSegmentAcknowledgment manager ack s).CountedState := by
  unfold handleSegmentAcknowledgment
  dsimp only
  split
  · exact h
  · split_ifs
    · exact h
    · exact counted_sendSegments counted_didSend _ _ (by simpa using h)
    · exact counted_didSend _ _ (by simpa using h)

theorem counted_transmissionTimer (sequenceZero : BitVec 16) (h : s.CountedState) :
    (transmissionTimer manager sequenceZero s).CountedState := by
  unfold transmissionTimer
  split
  · exact h
  · exact counted_sendSegments counted_didSend _ _ (by simpa using h)

theorem counted_txTimeout (address sequenceZero : BitVec 16) (h : s.CountedState) :
    (txTimeout manager address sequenceZero s).CountedState := by
  unfold txTimeout
  dsimp only
  split_ifs
  · split
    · exact counted_didSend _ _ (by simpa using h)
    · exact h
  · exact h

/-! ### The condition -/

/-- The sequence of the access PDU encrypted last for a source. -/
def lastEncrypted (s : Sender) (source : BitVec 16) : Option (BitVec 32) :=
  (s.encrypted.filter (·.source = source)).getLast?.map (·.sequence)

/-- **The counter has moved** since the last access PDU of the source, and is a number of 24
bits. -/
def Moved (s : Sender) : Event → Prop
  | .sendAccessPdu pdu _ _ => s.sno.toNat < 2 ^ 24 ∧ s.lastEncrypted pdu.source ≠ some s.sno
  | _ => True

instance : ∀ (s : Sender) (e : Event), Decidable (s.Moved e)
  | s, .sendAccessPdu pdu _ _ =>
    inferInstanceAs (Decidable (s.sno.toNat < 2 ^ 24 ∧ s.lastEncrypted pdu.source ≠ some s.sno))
  | _, .acknowledgment _ | _, .transmissionTimer _ | _, .txTimeout _ _ | _, .cancel _
  | _, .sendAck _ _ | _, .received _ | _, .bearer _ => inferInstanceAs (Decidable True)

/-- The last access PDU of a source has its greatest sequence. -/
theorem le_lastEncrypted (h : s.CountedState) {pdu : SigUpperTransportPdu}
    (hpdu : pdu ∈ s.encrypted) : ∃ last ∈ s.encrypted,
      s.lastEncrypted pdu.source = some last.sequence ∧
        pdu.sequence.toNat ≤ last.sequence.toNat := by
  have hmem : pdu ∈ s.encrypted.filter (·.source = pdu.source) :=
    List.mem_filter.mpr ⟨hpdu, decide_eq_true rfl⟩
  obtain ⟨pre, last, hsplit⟩ : ∃ pre last,
      s.encrypted.filter (·.source = pdu.source) = pre ++ [last] :=
    ⟨_, _, (List.dropLast_concat_getLast (List.ne_nil_of_mem hmem)).symm⟩
  have hlast : last ∈ s.encrypted.filter (·.source = pdu.source) := by
    rw [hsplit]
    exact List.mem_append_right _ List.mem_cons_self
  obtain ⟨hin, hsource⟩ := List.mem_filter.mp hlast
  refine ⟨last, hin, ?_, ?_⟩
  · unfold lastEncrypted
    rw [hsplit, List.getLast?_concat]
    rfl
  · rw [hsplit] at hmem
    rcases List.mem_append.mp hmem with hpre | hself
    · have hordered : (s.encrypted.filter (·.source = pdu.source)).Pairwise fun a b =>
          a.source = b.source → a.sequence.toNat < b.sequence.toNat := h.ordered.filter _
      rw [hsplit] at hordered
      have hbefore := (List.pairwise_append.mp hordered).2.2 pdu hpre last List.mem_cons_self
      exact Nat.le_of_lt (hbefore (of_decide_eq_true hsource).symm)
    · rw [List.mem_singleton.mp hself]

/-- An access PDU that finds the counter moved. -/
theorem counted_encrypted (h : s.CountedState) {pdu : SigUpperTransportPdu}
    (hsequence : pdu.sequence = s.sno) (hfits : s.sno.toNat < 2 ^ 24)
    (hmoved : s.lastEncrypted pdu.source ≠ some s.sno) :
    CountedState { s with encrypted := s.encrypted ++ [pdu] } := by
  refine ⟨h.signed, h.sent, h.increasing, ?_, ?_⟩
  · intro a ha
    rcases List.mem_append.mp ha with hold | hnew
    · exact h.below a hold
    · rw [List.mem_singleton.mp hnew, hsequence]
      exact ⟨Nat.le_refl _, hfits⟩
  · refine List.pairwise_append.mpr ⟨h.ordered, List.pairwise_singleton .., ?_⟩
    intro a ha b hb hsource
    rw [List.mem_singleton.mp hb] at hsource ⊢
    obtain ⟨last, hlast, hsame, hle⟩ := le_lastEncrypted h ha
    rw [hsequence]
    refine Nat.lt_of_le_of_lt hle (Nat.lt_of_le_of_ne (h.below last hlast).1 fun heq => ?_)
    exact hmoved (hsource ▸ hsame.trans (congrArg some (BitVec.eq_of_toNat_eq heq)))

theorem counted_sendAccessPdu {pdu : OutgoingAccessPdu} (command isSending : Bool)
    (h : s.CountedState) (hfits : s.sno.toNat < 2 ^ 24)
    (hmoved : s.lastEncrypted pdu.source ≠ some s.sno) :
    (sendAccessPdu manager pdu command isSending s).CountedState := by
  have hlogged : CountedState { s with
      encrypted := s.encrypted ++ [pdu.upperTransportPdu manager.ssl manager.ivIndex s.sno] } :=
    counted_encrypted h rfl hfits hmoved
  unfold sendAccessPdu
  dsimp only
  split_ifs
  · exact counted_enqueue _ hlogged
  · exact counted_send hlogged _
  · exact networkKeeps_counted.other hlogged _ _

/-- **One step.** -/
theorem counted_next {e : Event} (h : s.CountedState) (hmoved : s.Moved e) :
    (next manager s e).CountedState := by
  cases e with
  | sendAccessPdu pdu command isSending =>
    exact counted_sendAccessPdu command isSending h hmoved.1 hmoved.2
  | acknowledgment ack => exact counted_handleSegmentAcknowledgment ack h
  | transmissionTimer sequenceZero => exact counted_transmissionTimer sequenceZero h
  | txTimeout address sequenceZero => exact counted_txTimeout address sequenceZero h
  | cancel handle => exact counted_cancelHandle handle h
  | sendAck ack isSending => exact networkKeeps_counted.ack h ack isSending
  | received sequence => exact h.update _
  | bearer isOpen => exact h

end Sender

/-! ### Nonces -/

open Sender

/-- A nonce has 24 bits of a sequence. -/
def UniqueSequences (s : Sender) : Prop :=
  s.network.Pairwise (fun a b => a.1.setWidth 24 ≠ b.1.setWidth 24) ∧
  s.encrypted.Pairwise fun a b =>
    a.source = b.source → a.sequence.setWidth 24 ≠ b.sequence.setWidth 24

theorem setWidth_ne {a b : BitVec 32} (hab : a.toNat < b.toNat) (hb : b.toNat < 2 ^ 24) :
    a.setWidth 24 ≠ b.setWidth 24 := by
  intro heq
  have hnat := congrArg BitVec.toNat heq
  rw [BitVec.toNat_setWidth, BitVec.toNat_setWidth, Nat.mod_eq_of_lt (Nat.lt_trans hab hb),
    Nat.mod_eq_of_lt hb] at hnat
  exact absurd hnat (Nat.ne_of_lt hab)

theorem uniqueSequences_of_counted {s : Sender} (h : s.CountedState)
    (hfits : s.sno.toNat ≤ 2 ^ 24) : UniqueSequences s := by
  refine ⟨?_, ?_⟩
  · refine (h.increasing hfits).imp_of_mem fun _ hb hab => ?_
    exact setWidth_ne hab (Nat.lt_of_lt_of_le (h.sent hfits _ hb) hfits)
  · refine h.ordered.imp_of_mem fun _ hb hab hsource => ?_
    exact setWidth_ne (hab hsource) (h.below _ hb).2

/-- **Nonces are not used twice** in a run whose counter stays within 24 bits, where each access
PDU finds that the counter has moved since the last one of its source. -/
theorem uniqueSequences_of_moved (manager : SigNetworkManager) (sno : BitVec 32)
    (hsno : sno.toNat ≤ 2 ^ 24) (events : List Event)
    (hmoved : GoodRun (next manager) Moved (Sender.init sno) events)
    (hfits : (events.foldl (next manager) (Sender.init sno)).sno.toNat ≤ 2 ^ 24) :
    UniqueSequences (events.foldl (next manager) (Sender.init sno)) := by
  have hinit : (Sender.init sno).CountedState :=
    { signed := Nat.lt_of_le_of_lt hsno (by decide)
      sent := fun _ _ hq => absurd hq List.not_mem_nil
      increasing := fun _ => List.Pairwise.nil
      below := fun _ hpdu => absurd hpdu List.not_mem_nil
      ordered := List.Pairwise.nil }
  have hreach := Sys.reach_foldl_restrict
    (.init rfl : ((Sys.det (· = Sender.init sno) (next manager)).restrict Moved).Reach _) hmoved
  have hcounted := hreach.inv (P := CountedState)
    (fun s hs => hs ▸ hinit)
    (fun s e t hs hstep => hstep.2 ▸ counted_next hs hstep.1)
  exact uniqueSequences_of_counted hcounted hfits

/-- Two messages, an acknowledgment sent, a retransmission, and a received PDU. -/
theorem uniqueSequences_of_moved_sample :
    UniqueSequences ([.sendAccessPdu (longPdu 2) false false,
      .sendAccessPdu (longPdu 3) true false,
      .sendAck ⟨1, 2, 5, 1⟩ false, .transmissionTimer 5, .received 100,
      .sendAccessPdu (longPdu 2) false false].foldl (next sampleManager) (Sender.init 5)) :=
  uniqueSequences_of_moved sampleManager 5 (by decide) _ (by decide +kernel) (by decide +kernel)

/-- The third message has the sequence of the second, which waits behind the first. -/
theorem uniqueSequences_refuted : ¬ ∀ (manager : SigNetworkManager) (sno : BitVec 32)
    (events : List Event), UniqueSequences (events.foldl (next manager) (Sender.init sno)) := by
  intro h
  have hqueued := h sampleManager 5 [.sendAccessPdu (longPdu 2) false false,
    .sendAccessPdu (longPdu 2) false false, .sendAccessPdu (longPdu 3) false false]
  unfold UniqueSequences at hqueued
  exact absurd hqueued (by decide +kernel)

end LowerTransport

end PirMesh
