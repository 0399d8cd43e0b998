import Mathlib.Tactic.IntervalCases
import PirMesh.Library.Run
import PirMesh.Phone.LowerTransport

/-! # Phone — Replays

What the replay check is meant to save is the sequence of the newest message of each source; it
saves the local sequence number instead.  So nothing is ever discarded, and the messages of a
source are delivered in order only where they come in order (`InOrder`). -/

namespace PirMesh

open Run

namespace LowerTransport

/-! ### Fields of a segment -/

theorem sequenceZeroOf_sequenceFrom (q : BitVec 32) (tem1 tem2 : Nor.Byte) :
    sequenceZeroOf (sequenceFrom q (sequenceZeroFrom tem1 tem2)) = sequenceZeroFrom tem1 tem2 := by
  unfold sequenceZeroOf sequenceFrom sequenceZeroFrom
  ext i hi
  interval_cases i <;> simp

/-- The source is in the upper half of a key. -/
theorem getKey_inj {a b z w : BitVec 16} (h : getKey a z = getKey b w) : a = b := by
  refine BitVec.eq_of_getLsbD_eq fun i hi => ?_
  have hbit := congrArg (·.getLsbD (16 + i)) h
  unfold getKey at hbit
  interval_cases i <;> simpa using hbit

/-- What a segment takes from its network PDU. -/
structure SegmentOf (networkPdu : SigNetworkPdu) (segment : SigSegmentedMessage) : Prop where
  source : segment.source = networkPdu.source
  sequence : segment.sequence = networkPdu.messageSequence
  sequenceZero : segment.sequenceZero = sequenceZeroOf networkPdu.messageSequence

theorem segmentOf_segment {networkPdu : SigNetworkPdu} {segment : SigSegmentedMessage}
    (hseg : networkPdu.isSegmented = true) (h : networkPdu.segment = some segment) :
    SegmentOf networkPdu segment := by
  have hmessage : networkPdu.messageSequence = sequenceFrom networkPdu.sequence
      (sequenceZeroFrom (networkPdu.octet 1) (networkPdu.octet 2)) := if_pos hseg
  unfold SigNetworkPdu.segment at h
  dsimp only at h
  split at h
  · cases h
  · split at h
    · cases h
    · split at h
      · cases h
      · cases h
        exact ⟨rfl, hmessage.symm, by rw [hmessage, sequenceZeroOf_sequenceFrom]⟩

/-! ### What a network PDU does -/

variable {node : Option (BitVec 16)} {ivIndex : BitVec 32}
variable {layer layer' : SigLowerTransportLayer} {networkPdu : SigNetworkPdu}

/-- A segment waits under a key. -/
def Waits (layer : SigLowerTransportLayer) (key : BitVec 32) (s : SigSegmentedMessage) : Prop :=
  ∃ array, layer.incompleteSegments key = some array ∧ some s ∈ array

theorem Waits.congr (h : layer'.incompleteSegments = layer.incompleteSegments) {key : BitVec 32}
    {s : SigSegmentedMessage} (hs : Waits layer' key s) : Waits layer key s := by
  obtain ⟨array, harray, hmem⟩ := hs
  exact ⟨array, h ▸ harray, hmem⟩

/-- A segment that is not the copy of one of the message acknowledged last. -/
structure FreshSegment (layer : SigLowerTransportLayer) (networkPdu : SigNetworkPdu)
    (segment : SigSegmentedMessage) : Prop extends SegmentOf networkPdu segment where
  segmented : networkPdu.isSegmented = true
  decoded : networkPdu.segment = some segment
  ack : (layer.acknowledgments segment.source).map (·.sequenceZero) ≠ some segment.sequenceZero

/-- **One network PDU**, as far as reassemblies and deliveries go. -/
inductive Effect (layer : SigLowerTransportLayer) (networkPdu : SigNetworkPdu) :
    SigLowerTransportLayer × Option SigLowerTransportPdu → Prop
  /-- No array gets a segment. -/
  | quiet {layer' : SigLowerTransportLayer}
      (arrays : ∀ key s, Waits layer' key s → Waits layer key s) :
      Effect layer networkPdu (layer', none)
  /-- An unsegmented message, or one of a single segment. -/
  | atOnce {layer' : SigLowerTransportLayer} {message : SigLowerTransportPdu}
      (arrays : ∀ key s, Waits layer' key s → Waits layer key s)
      (source : message.source = networkPdu.source)
      (sequence : message.sequence = networkPdu.messageSequence)
      (single : networkPdu.isSegmented = true → ∃ segment,
        FreshSegment layer networkPdu segment ∧ segment.isSingleSegment = true) :
      Effect layer networkPdu (layer', some message)
  | stored {layer' : SigLowerTransportLayer} {segment : SigSegmentedMessage}
      (fresh : FreshSegment layer networkPdu segment)
      (arrays : ∀ key s, Waits layer' key s → Waits layer key s ∨
        key = getKey networkPdu.source segment.sequenceZero ∧ s = segment) :
      Effect layer networkPdu (layer', none)
  | completed {layer' : SigLowerTransportLayer} {segment : SigSegmentedMessage}
      {out : Option SigLowerTransportPdu} (fresh : FreshSegment layer networkPdu segment)
      (arrays : ∀ key s, Waits layer' key s → Waits layer key s ∧
        key ≠ getKey networkPdu.source segment.sequenceZero)
      (first : ∀ message, out = some message → ∃ s, (s = segment ∨
        Waits layer (getKey networkPdu.source segment.sequenceZero) s) ∧
        message.source = s.source ∧ message.sequence = s.sequence) :
      Effect layer networkPdu (layer', out)

theorem Effect.same (h : layer'.incompleteSegments = layer.incompleteSegments) :
    Effect layer networkPdu (layer', none) :=
  .quiet fun _ _ => Waits.congr h

theorem incompleteSegments_acknowledge (destination : BitVec 16)
    (segments : List (Option SigSegmentedMessage)) :
    (layer.acknowledge node destination segments).incompleteSegments =
      layer.incompleteSegments := by
  unfold SigLowerTransportLayer.acknowledge SigLowerTransportLayer.sendAckForSegments
  split
  · split
    · rfl
    · split <;> rfl
  · rfl

/-- The array of a key after a new segment. -/
theorem waits_of_mem_set {key : BitVec 32} {segment s : SigSegmentedMessage} {i count : Nat}
    (hs : some s ∈ ((layer.incompleteSegments key).getD (List.replicate count none)).set i
      (some segment)) : s = segment ∨ Waits layer key s := by
  rcases List.mem_or_eq_of_mem_set hs with hold | hnew
  · cases hkey : layer.incompleteSegments key with
    | none =>
      rw [hkey] at hold
      exact absurd (List.eq_of_mem_replicate hold) (by simp)
    | some old =>
      rw [hkey] at hold
      exact .inr ⟨old, hkey, hold⟩
  · exact .inl (Option.some.inj hnew)

theorem waits_setIncomplete {key key' : BitVec 32} {s : SigSegmentedMessage}
    {segments : Option (List (Option SigSegmentedMessage))}
    (hs : Waits (layer.setIncomplete key segments) key' s) :
    (key' = key ∧ ∃ array, segments = some array ∧ some s ∈ array) ∨
      (key' ≠ key ∧ Waits layer key' s) := by
  obtain ⟨array, harray, hmem⟩ := hs
  by_cases hkey : key' = key
  · subst hkey
    rw [SigLowerTransportLayer.setIncomplete_self] at harray
    exact .inl ⟨rfl, array, harray, hmem⟩
  · rw [SigLowerTransportLayer.setIncomplete_of_ne _ hkey] at harray
    exact .inr ⟨hkey, array, harray, hmem⟩

theorem first_of_initFromSegments {array : List (Option SigSegmentedMessage)}
    {message : SigLowerTransportPdu} (h : initFromSegments (array.filterMap id) = some message) :
    ∃ s, some s ∈ array ∧ message.source = s.source ∧ message.sequence = s.sequence := by
  cases hsegments : array.filterMap id with
  | nil =>
    rw [hsegments] at h
    exact absurd h (by simp [initFromSegments])
  | cons s rest =>
    rw [hsegments] at h
    cases h
    have hmem : s ∈ array.filterMap id := hsegments ▸ List.mem_cons_self
    obtain ⟨o, ho, hs⟩ := List.mem_filterMap.mp hmem
    exact ⟨s, (show o = some s from hs) ▸ ho, rfl, rfl⟩

theorem effect_collect {segment : SigSegmentedMessage}
    (h : FreshSegment layer networkPdu segment) (layer₁ : SigLowerTransportLayer)
    (hsame : layer₁.incompleteSegments = layer.incompleteSegments) :
    Effect layer networkPdu (layer₁.collect node segment networkPdu) := by
  unfold SigLowerTransportLayer.collect
  dsimp only
  rw [hsame]
  split_ifs with hout hall
  · refine .quiet fun key s hs => ?_
    rcases waits_setIncomplete hs with ⟨hkey, array, harray, hmem⟩ | ⟨-, hold⟩
    · cases harray
      subst hkey
      cases hold : layer.incompleteSegments (getKey networkPdu.source segment.sequenceZero) with
      | none =>
        rw [hold] at hmem
        exact absurd (List.eq_of_mem_replicate hmem) (by simp)
      | some old =>
        rw [hold] at hmem
        exact ⟨old, hold, hmem⟩
    · exact hold.congr hsame
  · have harrays : ∀ key s, Waits (layer₁.setIncomplete (getKey networkPdu.source
        segment.sequenceZero) none) key s → Waits layer key s ∧
        key ≠ getKey networkPdu.source segment.sequenceZero := by
      intro key s hs
      rcases waits_setIncomplete hs with ⟨-, array, harray, -⟩ | ⟨hkey, hold⟩
      · cases harray
      · exact ⟨hold.congr hsame, hkey⟩
    cases node with
    | none => exact .completed h harrays fun _ h => nomatch h
    | some adr =>
      refine .completed h ?_ ?_
      · intro key s hs
        exact harrays key s (hs.congr (incompleteSegments_acknowledge ..))
      · intro message hmessage
        obtain ⟨s, hs, hfirst⟩ := first_of_initFromSegments hmessage
        exact ⟨s, waits_of_mem_set hs, hfirst⟩
  · refine .stored h fun key s hs => ?_
    rcases waits_setIncomplete hs with ⟨hkey, array, harray, hmem⟩ | ⟨-, hold⟩
    · cases harray
      subst hkey
      exact (waits_of_mem_set hmem).symm.imp_right fun hs => ⟨rfl, hs⟩
    · exact .inl (hold.congr hsame)

theorem effect_assembleSegmentedMessage {segment : SigSegmentedMessage}
    (hseg : networkPdu.isSegmented = true) (hdecoded : networkPdu.segment = some segment)
    (layer₁ : SigLowerTransportLayer)
    (hsame : layer₁.incompleteSegments = layer.incompleteSegments)
    (hacks : layer₁.acknowledgments = layer.acknowledgments) :
    Effect layer networkPdu (layer₁.assembleSegmentedMessage node segment networkPdu) := by
  have hof := segmentOf_segment hseg hdecoded
  unfold SigLowerTransportLayer.assembleSegmentedMessage
  dsimp only
  rw [hacks]
  split_ifs with hack hsingle
  · split
    · exact .same hsame
    · exact .same hsame
  · have hfresh : FreshSegment layer networkPdu segment := ⟨hof, hseg, hdecoded, hack⟩
    cases node with
    | none => exact .same hsame
    | some adr =>
      refine .atOnce ?_ hof.source hof.sequence fun _ => ⟨segment, hfresh, hsingle⟩
      intro key s hs
      exact (hs.congr (incompleteSegments_acknowledge ..)).congr hsame
  · exact effect_collect ⟨hof, hseg, hdecoded, hack⟩ _ hsame

theorem effect_assembleNil (layer₁ : SigLowerTransportLayer)
    (hsame : layer₁.incompleteSegments = layer.incompleteSegments) :
    Effect layer networkPdu (layer₁.assembleNil node networkPdu, none) := by
  unfold SigLowerTransportLayer.assembleNil
  dsimp only
  split_ifs
  · split
    · exact .same hsame
    · exact .same hsame
  · split
    · refine .quiet fun key s hs => ?_
      rcases waits_setIncomplete hs with ⟨-, array, harray, hmem⟩ | ⟨-, hold⟩
      · cases harray
        exact absurd hmem List.not_mem_nil
      · exact hold.congr hsame
    · exact .same hsame

theorem checkAgainstReplayAttack_same
    (h : layer.checkAgainstReplayAttack ivIndex networkPdu = some layer') :
    layer'.incompleteSegments = layer.incompleteSegments ∧
      layer'.acknowledgments = layer.acknowledgments := by
  have hsome : ∀ {accepted : Bool} {l : SigLowerTransportLayer},
      (if accepted = true then some l else none) = some layer' → l = layer' := by
    intro accepted l hl
    cases accepted with
    | false => cases hl
    | true => exact Option.some.inj hl
  rw [← hsome h]
  exact ⟨rfl, rfl⟩

theorem unsegmented_eq {message : SigLowerTransportPdu}
    (h : networkPdu.unsegmented = some message) :
    message.source = networkPdu.source ∧ message.sequence = networkPdu.sequence := by
  unfold SigNetworkPdu.unsegmented at h
  dsimp only at h
  split at h
  · split at h
    · cases h
    · cases h
      exact ⟨rfl, rfl⟩
  · split at h
    · cases h
    · cases h
      exact ⟨rfl, rfl⟩

/-- **The whole of `handleNetworkPdu:`.** -/
theorem effect_handleNetworkPdu (node : Option (BitVec 16)) (ivIndex : BitVec 32)
    (layer : SigLowerTransportLayer) (networkPdu : SigNetworkPdu) :
    Effect layer networkPdu (layer.handleNetworkPdu node ivIndex networkPdu) := by
  unfold SigLowerTransportLayer.handleNetworkPdu
  by_cases hskip : layer.terminated ∨ networkPdu.transportPdu.length ≤ 1
  · rw [if_pos hskip]
    exact .same rfl
  rw [if_neg hskip]
  cases hcheck : layer.checkAgainstReplayAttack ivIndex networkPdu with
  | none => exact .same rfl
  | some layer₁ =>
    obtain ⟨hsame, hacks⟩ := checkAgainstReplayAttack_same hcheck
    dsimp only
    by_cases hseg : networkPdu.isSegmented = true
    · rw [if_pos hseg]
      cases hsegment : networkPdu.segment with
      | none => exact effect_assembleNil layer₁ hsame
      | some segment =>
        exact effect_assembleSegmentedMessage hseg hsegment layer₁ hsame hacks
    · rw [if_neg hseg]
      by_cases hack : networkPdu.type = .controlMessage ∧ networkPdu.octet 0 &&& 0x7F#8 = 0
      · rw [if_pos hack]
        exact .same hsame
      · rw [if_neg hack]
        cases hmessage : networkPdu.unsegmented with
        | none => exact .same hsame
        | some message =>
          obtain ⟨hsource, hsequence⟩ := unsegmented_eq hmessage
          have hown : networkPdu.messageSequence = networkPdu.sequence := if_neg hseg
          exact .atOnce (fun _ _ => Waits.congr hsame) hsource (hown ▸ hsequence)
            fun h => absurd h hseg

/-! ### Runs -/

/-- The layer, the newest sequence of each source, and what the upper transport layer got. -/
structure Reception where
  layer : SigLowerTransportLayer
  saved : BitVec 16 → Option (BitVec 32)
  delivered : List SigLowerTransportPdu

namespace Reception

def init : Reception := ⟨.init, fun _ => none, []⟩

variable (node : Option (BitVec 16)) (ivIndex : BitVec 32) (r : Reception)
variable (networkPdu : SigNetworkPdu)

/-- What "save the new sequence authentication value" would leave. -/
def savedAfter : BitVec 16 → Option (BitVec 32) :=
  if networkPdu.transportPdu.length ≤ 1 ∨ (r.saved networkPdu.source).any fun last =>
      decide (seqAuth ivIndex networkPdu.messageSequence < seqAuth ivIndex last) then r.saved
  else Function.update r.saved networkPdu.source (some networkPdu.messageSequence)

def next : Reception where
  layer := (r.layer.handleNetworkPdu node ivIndex networkPdu).1
  saved := r.savedAfter ivIndex networkPdu
  delivered := r.delivered ++ (r.layer.handleNetworkPdu node ivIndex networkPdu).2.toList

/-- The segments that wait under the key of a PDU. -/
def waiting : List SigSegmentedMessage :=
  ((r.layer.incompleteSegments (getKey networkPdu.source
    (sequenceZeroOf networkPdu.messageSequence))).getD []).filterMap id

/-- Newer than all of its source, and no segment of an older message waits for it. -/
def Newer : Prop :=
  ((r.saved networkPdu.source).all fun last =>
    decide (seqAuth ivIndex last < seqAuth ivIndex networkPdu.messageSequence)) = true ∧
  (networkPdu.isSegmented = true → r.waiting networkPdu = [])

/-- A segment of the newest message of its source, with a reassembly under way. -/
def SameMessage : Prop :=
  r.saved networkPdu.source = some networkPdu.messageSequence ∧
  networkPdu.isSegmented = true ∧
  (∀ segment ∈ networkPdu.segment, segment.isSingleSegment = false) ∧
  r.waiting networkPdu ≠ [] ∧
  ∀ s ∈ r.waiting networkPdu, s.sequence = networkPdu.messageSequence

/-- A segment with the SeqZero acknowledged last. -/
def Acknowledged : Prop :=
  networkPdu.isSegmented = true ∧
  (r.layer.acknowledgments networkPdu.source).map (·.sequenceZero) =
    some (sequenceZeroOf networkPdu.messageSequence)

/-- **In order**: a replay check with the saved values would let the PDU pass. -/
def InOrder : Prop :=
  networkPdu.transportPdu.length ≤ 1 ∨ r.Newer ivIndex networkPdu ∨ r.SameMessage networkPdu ∨
    r.Acknowledged networkPdu

instance : Decidable (r.Newer ivIndex networkPdu) :=
  inferInstanceAs (Decidable (_ = true ∧ (_ → _)))

instance : Decidable (r.SameMessage networkPdu) :=
  inferInstanceAs (Decidable (_ ∧ _ ∧ (∀ segment ∈ networkPdu.segment,
    segment.isSingleSegment = false) ∧ _ ∧ (∀ s ∈ r.waiting networkPdu, _)))

instance : Decidable (r.Acknowledged networkPdu) := inferInstanceAs (Decidable (_ ∧ _))

instance : Decidable (r.InOrder ivIndex networkPdu) :=
  inferInstanceAs (Decidable (_ ∨ _ ∨ _ ∨ _))

end Reception

/-! ### What the runs keep -/

/-- The last 13 bits are in the authentication value. -/
theorem sequenceZeroOf_congr {a b : BitVec 32} (h : seqAuth ivIndex a = seqAuth ivIndex b) :
    sequenceZeroOf a = sequenceZeroOf b := by
  refine BitVec.eq_of_getLsbD_eq fun i hi => ?_
  have hbit := congrArg (·.getLsbD i) h
  unfold seqAuth at hbit
  unfold sequenceZeroOf
  rcases Nat.lt_or_ge i 13 with hlow | hhigh
  · interval_cases i <;> simpa using hbit
  · interval_cases i <;> simp

namespace Reception

variable {r : Reception}

/-- What is delivered is as old as what is saved, what waits is not delivered. -/
structure Kept (ivIndex : BitVec 32) (r : Reception) : Prop where
  delivered : ∀ d ∈ r.delivered, ∃ last, r.saved d.source = some last ∧
    seqAuth ivIndex d.sequence ≤ seqAuth ivIndex last
  key : ∀ key s, Waits r.layer key s → key = getKey s.source (sequenceZeroOf s.sequence)
  stored : ∀ key s, Waits r.layer key s →
    ∃ last, r.saved s.source = some last ∧ seqAuth ivIndex s.sequence ≤ seqAuth ivIndex last
  waits : ∀ key s, Waits r.layer key s → ∀ d ∈ r.delivered, d.source = s.source →
    seqAuth ivIndex d.sequence ≠ seqAuth ivIndex s.sequence
  ordered : r.delivered.Pairwise fun a b =>
    a.source = b.source → seqAuth ivIndex a.sequence < seqAuth ivIndex b.sequence

theorem kept_init (ivIndex : BitVec 32) : Kept ivIndex init := by
  have hnone : ∀ key s, ¬ Waits init.layer key s := by
    intro key s hs
    obtain ⟨array, harray, -⟩ := hs
    cases harray
  exact
    { delivered := fun _ h => absurd h List.not_mem_nil
      key := fun key s h => absurd h (hnone key s)
      stored := fun key s h => absurd h (hnone key s)
      waits := fun key s h => absurd h (hnone key s)
      ordered := List.Pairwise.nil }

/-- What is saved only gets newer. -/
theorem saved_savedAfter (ivIndex : BitVec 32) (networkPdu : SigNetworkPdu) {source : BitVec 16}
    {last : BitVec 32} (h : r.saved source = some last) :
    ∃ last', r.savedAfter ivIndex networkPdu source = some last' ∧
      seqAuth ivIndex last ≤ seqAuth ivIndex last' := by
  unfold savedAfter
  split_ifs with hold
  · exact ⟨last, h, BitVec.le_refl _⟩
  · by_cases hsource : source = networkPdu.source
    · subst hsource
      refine ⟨_, Function.update_self .., BitVec.not_lt.mp fun hlt => hold (.inr ?_)⟩
      rw [h]
      exact decide_eq_true hlt
    · exact ⟨last, (Function.update_of_ne hsource ..).trans h, BitVec.le_refl _⟩

/-- The PDU itself is as old as what is saved. -/
theorem savedAfter_self (hlength : ¬ networkPdu.transportPdu.length ≤ 1) :
    ∃ last, r.savedAfter ivIndex networkPdu networkPdu.source = some last ∧
      seqAuth ivIndex networkPdu.messageSequence ≤ seqAuth ivIndex last := by
  unfold savedAfter
  split_ifs with hold
  · obtain ⟨last, hlast, hlt⟩ := (Option.any_eq_true ..).mp (hold.resolve_left hlength)
    exact ⟨last, hlast, BitVec.le_of_lt (of_decide_eq_true hlt)⟩
  · exact ⟨_, Function.update_self .., BitVec.le_refl _⟩

/-- The PDU is newer than everything delivered from its source. -/
def Undelivered (ivIndex : BitVec 32) (r : Reception) (networkPdu : SigNetworkPdu) : Prop :=
  ∀ d ∈ r.delivered, d.source = networkPdu.source →
    seqAuth ivIndex d.sequence < seqAuth ivIndex networkPdu.messageSequence

theorem Newer.lt (h : r.Newer ivIndex networkPdu) {last : BitVec 32}
    (hlast : r.saved networkPdu.source = some last) :
    seqAuth ivIndex last < seqAuth ivIndex networkPdu.messageSequence := by
  have hall := h.1
  rw [hlast] at hall
  exact of_decide_eq_true hall

theorem undelivered_of_newer (h : Kept ivIndex r) (hnewer : r.Newer ivIndex networkPdu) :
    Undelivered ivIndex r networkPdu := by
  intro d hd hsource
  obtain ⟨last, hlast, hle⟩ := h.delivered d hd
  rw [hsource] at hlast
  exact Std.lt_of_le_of_lt hle (hnewer.lt hlast)

theorem mem_waiting {s : SigSegmentedMessage} : s ∈ r.waiting networkPdu ↔
    Waits r.layer (getKey networkPdu.source (sequenceZeroOf networkPdu.messageSequence)) s := by
  unfold waiting Waits
  cases r.layer.incompleteSegments (getKey networkPdu.source
    (sequenceZeroOf networkPdu.messageSequence)) with
  | none => simp
  | some array => simp

/-- A segment that waits under the key of a PDU has its source. -/
theorem source_of_waiting (h : Kept ivIndex r) {s : SigSegmentedMessage}
    (hs : s ∈ r.waiting networkPdu) : s.source = networkPdu.source :=
  (getKey_inj (h.key _ s (mem_waiting.mp hs))).symm

theorem undelivered_of_sameMessage (h : Kept ivIndex r) (hsame : r.SameMessage networkPdu) :
    Undelivered ivIndex r networkPdu := by
  intro d hd hsource
  obtain ⟨hsaved, -, -, hwaiting, hall⟩ := hsame
  obtain ⟨s, hs⟩ := List.exists_mem_of_ne_nil _ hwaiting
  have hne := h.waits _ s (mem_waiting.mp hs) d hd
    (hsource.trans (source_of_waiting h hs).symm)
  rw [hall s hs] at hne
  obtain ⟨last, hlast, hle⟩ := h.delivered d hd
  rw [hsource, hsaved] at hlast
  cases hlast
  exact Nat.lt_of_le_of_ne hle fun heq => hne (BitVec.eq_of_toNat_eq heq)

/-- Where the PDU fits, its message is not delivered yet, and its array has no other one. -/
theorem undelivered_of_fresh (h : Kept ivIndex r) (hgood : r.InOrder ivIndex networkPdu)
    (hlength : ¬ networkPdu.transportPdu.length ≤ 1) {segment : SigSegmentedMessage}
    (hfresh : FreshSegment r.layer networkPdu segment) :
    Undelivered ivIndex r networkPdu ∧
      ∀ s ∈ r.waiting networkPdu, s.sequence = networkPdu.messageSequence := by
  rcases hgood with hshort | hnewer | hsame | hack
  · exact absurd hshort hlength
  · refine ⟨undelivered_of_newer h hnewer, fun s hs => ?_⟩
    rw [hnewer.2 hfresh.segmented] at hs
    exact absurd hs List.not_mem_nil
  · exact ⟨undelivered_of_sameMessage h hsame, hsame.2.2.2.2⟩
  · have hno := hfresh.ack
    rw [hfresh.source, hfresh.sequenceZero] at hno
    exact absurd hack.2 hno

/-- **What a step has to give**: what waits is of the old segments and of the PDU, what is
delivered is of the PDU and no longer waits. -/
theorem Kept.step (h : Kept ivIndex r) (hlength : ¬ networkPdu.transportPdu.length ≤ 1)
    {out : Option SigLowerTransportPdu}
    (hwaits : ∀ key s, Waits layer' key s → Waits r.layer key s ∨
      (key = getKey networkPdu.source (sequenceZeroOf networkPdu.messageSequence) ∧
        s.source = networkPdu.source ∧ s.sequence = networkPdu.messageSequence ∧
        Undelivered ivIndex r networkPdu))
    (hout : ∀ message, out = some message → message.source = networkPdu.source ∧
      message.sequence = networkPdu.messageSequence ∧ Undelivered ivIndex r networkPdu ∧
      ∀ key s, Waits layer' key s → s.source = networkPdu.source →
        seqAuth ivIndex networkPdu.messageSequence ≠ seqAuth ivIndex s.sequence) :
    Kept ivIndex ⟨layer', r.savedAfter ivIndex networkPdu, r.delivered ++ out.toList⟩ := by
  have hmem : ∀ d ∈ r.delivered ++ out.toList, d ∈ r.delivered ∨ out = some d := by
    intro d hd
    exact (List.mem_append.mp hd).imp_right Option.mem_toList.mp
  refine ⟨?_, ?_, ?_, ?_, ?_⟩
  · intro d hd
    rcases hmem d hd with hold | hnew
    · obtain ⟨last, hlast, hle⟩ := h.delivered d hold
      obtain ⟨last', hlast', hle'⟩ := saved_savedAfter ivIndex networkPdu hlast
      exact ⟨last', hlast', BitVec.le_trans hle hle'⟩
    · obtain ⟨hsource, hsequence, -, -⟩ := hout d hnew
      rw [hsource, hsequence]
      exact savedAfter_self hlength
  · intro key s hs
    rcases hwaits key s hs with hold | ⟨hkey, hsource, hsequence, -⟩
    · exact h.key key s hold
    · rw [hkey, hsource, hsequence]
  · intro key s hs
    rcases hwaits key s hs with hold | ⟨-, hsource, hsequence, -⟩
    · obtain ⟨last, hlast, hle⟩ := h.stored key s hold
      obtain ⟨last', hlast', hle'⟩ := saved_savedAfter ivIndex networkPdu hlast
      exact ⟨last', hlast', BitVec.le_trans hle hle'⟩
    · rw [hsource, hsequence]
      exact savedAfter_self hlength
  · intro key s hs d hd hds
    rcases hmem d hd with hold | hnew
    · rcases hwaits key s hs with hwait | ⟨-, hsource, hsequence, hundelivered⟩
      · exact h.waits key s hwait d hold hds
      · rw [hsequence]
        exact BitVec.ne_of_lt (hundelivered d hold (hds.trans hsource))
    · obtain ⟨hsource, hsequence, -, hleft⟩ := hout d hnew
      rw [hsequence]
      exact hleft key s hs (hds.symm.trans hsource)
  · refine List.pairwise_append.mpr ⟨h.ordered, ?_, ?_⟩
    · cases out with
      | none => exact List.Pairwise.nil
      | some message => exact List.pairwise_singleton _ _
    · intro a ha b hb hab
      obtain ⟨hsource, hsequence, hundelivered, -⟩ := hout b (Option.mem_toList.mp hb)
      rw [hsequence]
      exact hundelivered a ha (hab.trans hsource)

/-- **One step** of a PDU in order. -/
theorem kept_next (node : Option (BitVec 16)) (h : Kept ivIndex r)
    (hgood : r.InOrder ivIndex networkPdu) : Kept ivIndex (r.next node ivIndex networkPdu) := by
  by_cases hlength : networkPdu.transportPdu.length ≤ 1
  · have hsame : r.next node ivIndex networkPdu = r := by
      unfold next savedAfter SigLowerTransportLayer.handleNetworkPdu
      rw [if_pos (.inr hlength), if_pos (.inl hlength)]
      exact congrArg (Reception.mk r.layer r.saved) (List.append_nil _)
    rwa [hsame]
  have heffect := effect_handleNetworkPdu node ivIndex r.layer networkPdu
  unfold next
  generalize r.layer.handleNetworkPdu node ivIndex networkPdu = result at heffect
  cases heffect with
  | quiet arrays =>
    exact h.step hlength (fun key s hs => .inl (arrays key s hs)) fun _ hnone => nomatch hnone
  | atOnce arrays source sequence single =>
    have hnewer : r.Newer ivIndex networkPdu := by
      rcases hgood with hshort | hnewer | hsame | hack
      · exact absurd hshort hlength
      · exact hnewer
      · obtain ⟨segment, hfresh, hsingle⟩ := single hsame.2.1
        exact absurd hsingle (by simp [hsame.2.2.1 segment hfresh.decoded])
      · obtain ⟨segment, hfresh, -⟩ := single hack.1
        have hno := hfresh.ack
        rw [hfresh.source, hfresh.sequenceZero] at hno
        exact absurd hack.2 hno
    refine h.step hlength (fun key s hs => .inl (arrays key s hs)) fun message hmessage => ?_
    cases hmessage
    refine ⟨source, sequence, undelivered_of_newer h hnewer, fun key s hs hsource => ?_⟩
    obtain ⟨last, hlast, hle⟩ := h.stored key s (arrays key s hs)
    rw [hsource] at hlast
    have hlt : seqAuth ivIndex s.sequence < seqAuth ivIndex networkPdu.messageSequence :=
      Std.lt_of_le_of_lt hle (hnewer.lt hlast)
    exact (BitVec.ne_of_lt hlt).symm
  | stored fresh arrays =>
    obtain ⟨hundelivered, -⟩ := undelivered_of_fresh h hgood hlength fresh
    refine h.step hlength (fun key s hs => ?_) fun _ hnone => nomatch hnone
    rcases arrays key s hs with hold | ⟨hkey, hseg⟩
    · exact .inl hold
    · rw [hseg]
      exact .inr ⟨fresh.sequenceZero ▸ hkey, fresh.source, fresh.sequence, hundelivered⟩
  | completed fresh arrays first =>
    obtain ⟨hundelivered, hall⟩ := undelivered_of_fresh h hgood hlength fresh
    rw [fresh.sequenceZero] at arrays first
    refine h.step hlength (fun key s hs => .inl (arrays key s hs).1) fun message hmessage => ?_
    obtain ⟨s, hs, hsource, hsequence⟩ := first message hmessage
    have hfirst : s.source = networkPdu.source ∧ s.sequence = networkPdu.messageSequence := by
      rcases hs with hown | hold
      · rw [hown]
        exact ⟨fresh.source, fresh.sequence⟩
      · exact ⟨source_of_waiting h (mem_waiting.mpr hold), hall s (mem_waiting.mpr hold)⟩
    refine ⟨hsource.trans hfirst.1, hsequence.trans hfirst.2, hundelivered, ?_⟩
    intro key s' hs' hsource' hauth
    obtain ⟨hold, hkey⟩ := arrays key s' hs'
    refine hkey ?_
    rw [h.key key s' hold, hsource', sequenceZeroOf_congr hauth]

end Reception

/-! ### Replay protection -/

open Reception

/-- Messages of one source are delivered in order, none twice. -/
def NoReplay (ivIndex : BitVec 32) (delivered : List SigLowerTransportPdu) : Prop :=
  delivered.Pairwise fun a b =>
    a.source = b.source → seqAuth ivIndex a.sequence < seqAuth ivIndex b.sequence

/-- **Replay protection**: no message is delivered twice or behind a newer one of its source,
where the PDUs come in order. -/
theorem replayProtection_of_inOrder (node : Option (BitVec 16)) (ivIndex : BitVec 32)
    (networkPdus : List SigNetworkPdu)
    (h : GoodRun (next node ivIndex) (InOrder ivIndex) Reception.init networkPdus) :
    NoReplay ivIndex (networkPdus.foldl (next node ivIndex) Reception.init).delivered := by
  have hreach := Sys.reach_foldl_restrict
    (.init rfl : ((Sys.det (· = Reception.init) (next node ivIndex)).restrict
      (InOrder ivIndex)).Reach Reception.init) h
  have hkept := hreach.inv (P := Kept ivIndex)
    (fun r hr => hr ▸ kept_init ivIndex)
    (fun r networkPdu r' hr hstep => hstep.2 ▸ kept_next node hr hstep.1)
  exact hkept.ordered

/-- An unsegmented access message. -/
def shortPdu (source : BitVec 16) (sequence : BitVec 32) : SigNetworkPdu where
  type := .accessMessage
  sequence := sequence
  source := source
  destination := 1
  transportPdu := [0x41, 1, 2, 3, 4, 5]

/-- A segment of a message of two segments with SeqZero 8. -/
def segmentPdu (sequence : BitVec 32) (offset : Nor.Byte) : SigNetworkPdu where
  type := .accessMessage
  sequence := sequence
  source := 2
  destination := 1
  transportPdu := [0xC1, 0, 0x20, offset <<< 5 ||| 1, 6]

theorem replayProtection_of_inOrder_sample :
    NoReplay 0 ([shortPdu 2 5, segmentPdu 8 1, shortPdu 3 1, segmentPdu 9 0, segmentPdu 10 1,
      shortPdu 2 20].foldl (next (some 1) 0) Reception.init).delivered :=
  replayProtection_of_inOrder (some 1) 0 _ (by decide +kernel)

/-- The same network PDU twice. -/
theorem replayProtection_refuted : ¬ ∀ (node : Option (BitVec 16)) (ivIndex : BitVec 32)
    (networkPdus : List SigNetworkPdu),
    NoReplay ivIndex (networkPdus.foldl (next node ivIndex) Reception.init).delivered := by
  intro h
  have htwice := h (some 1) 0 [shortPdu 2 5, shortPdu 2 5]
  unfold NoReplay at htwice
  exact absurd htwice (by decide +kernel)

end LowerTransport

end PirMesh
