import PirMesh.Phone.SegmentsSpec

/-! # Phone — Reassembly in any order (`assembleSegmentedMessage:createdFrom:`)

The array of a reassembly has for each offset the last segment that came (`collected`), whatever
the order and the copies.  With the last missing offset it is complete, and the message is put
together from it; its sequence number is that of the segment at offset 0. -/

namespace PirMesh

open Nor (Byte)

namespace LowerTransport

namespace AccessMessage

variable {m : AccessMessage}

/-! ### The segments that came -/

/-- The last arrival at an offset. -/
def lastOf (l : List m.Arrival) (i : Nat) : Option m.Arrival :=
  (l.filter fun a => decide (a.offset = i)).getLast?

theorem lastOf_append (l : List m.Arrival) (a : m.Arrival) (i : Nat) :
    lastOf (l ++ [a]) i = if a.offset = i then some a else lastOf l i := by
  unfold lastOf
  rw [List.filter_append]
  split_ifs with hi
  · rw [List.filter_cons_of_pos (by simpa using hi), List.filter_nil, List.getLast?_concat]
  · rw [List.filter_cons_of_neg (by simpa using hi), List.filter_nil, List.append_nil]

theorem offset_of_lastOf {l : List m.Arrival} {i : Nat} {a : m.Arrival}
    (h : lastOf l i = some a) : a.offset = i := by
  have hmem := List.mem_of_getLast? h
  simpa using (List.mem_filter.mp hmem).2

/-- Every offset has come. -/
def Complete (l : List m.Arrival) : Prop := ∀ i < m.pdu.count, ∃ a ∈ l, a.offset = i

instance (l : List m.Arrival) : Decidable (Complete l) :=
  inferInstanceAs (Decidable (∀ i < m.pdu.count, ∃ a ∈ l, a.offset = i))

theorem isSome_lastOf_iff {l : List m.Arrival} {i : Nat} :
    (lastOf l i).isSome ↔ ∃ a ∈ l, a.offset = i := by
  unfold lastOf
  rw [List.getLast?_isSome, ne_eq, List.filter_eq_nil_iff]
  simp

/-- The array of the reassembly. -/
def collected (l : List m.Arrival) : List (Option SigSegmentedMessage) :=
  (List.range m.pdu.count).map fun i => (lastOf l i).map (·.received)

theorem length_collected (l : List m.Arrival) : (collected l).length = m.pdu.count := by
  rw [collected, List.length_map, List.length_range]

theorem getElem_collected (l : List m.Arrival) (i : Nat) (h : i < (collected l).length) :
    (collected l)[i] = (lastOf l i).map (·.received) := by
  simp [collected]

theorem collected_nil : collected ([] : List m.Arrival) = List.replicate m.pdu.count none := by
  refine List.ext_getElem (by rw [length_collected, List.length_replicate]) fun i h1 h2 => ?_
  rw [List.getElem_replicate, getElem_collected]
  rfl

theorem collected_append (l : List m.Arrival) (a : m.Arrival) :
    collected (l ++ [a]) = (collected l).set a.offset (some a.received) := by
  refine List.ext_getElem (by simp [length_collected]) fun i h1 h2 => ?_
  rw [List.getElem_set, getElem_collected, getElem_collected, lastOf_append]
  split_ifs <;> rfl

theorem all_collected_iff (l : List m.Arrival) :
    (collected l).all Option.isSome = true ↔ Complete l := by
  rw [List.all_eq_true]
  constructor
  · intro h i hi
    have hmem : (lastOf l i).map (·.received) ∈ collected l :=
      List.mem_map.mpr ⟨i, List.mem_range.mpr hi, rfl⟩
    have hsome := h _ hmem
    rw [Option.isSome_map] at hsome
    exact isSome_lastOf_iff.mp hsome
  · intro h x hx
    obtain ⟨i, hi, rfl⟩ := List.mem_map.mp hx
    rw [Option.isSome_map]
    exact isSome_lastOf_iff.mpr (h i (List.mem_range.mp hi))

/-! ### Putting together -/

theorem flatMap_chunk (l : List Byte) (n : Nat) :
    (List.range n).flatMap (chunk l) = l.take (12 * n) := by
  induction n with
  | zero => rfl
  | succ n ih =>
    rw [List.range_succ, List.flatMap_append, ih, List.flatMap_singleton, Nat.mul_succ,
      List.take_add]
    rfl

theorem flatMap_filterMap {α β γ : Type} (l : List α) (g : α → Option β) (u : β → List γ)
    (v : α → List γ) (h : ∀ a ∈ l, ∃ b, g a = some b ∧ u b = v a) :
    (l.filterMap g).flatMap u = l.flatMap v := by
  induction l with
  | nil => rfl
  | cons a l ih =>
    obtain ⟨b, hb, huv⟩ := h a List.mem_cons_self
    rw [List.filterMap_cons_some hb, List.flatMap_cons, List.flatMap_cons, huv,
      ih fun c hc => h c (List.mem_cons_of_mem a hc)]

/-- The message that is put together, with the sequence number of a segment. -/
def assembled (m : AccessMessage) (a : m.Arrival) : SigLowerTransportPdu where
  kind := .access m.keySet.aid m.micSize
  source := m.source
  destination := m.destination
  sequence := sequenceFrom (a.sequence.setWidth 32) m.pdu.sequenceZero
  upperTransportPdu := m.transportPdu

/-- A complete array gives the transport PDU. -/
theorem initFromSegments_collected {l : List m.Arrival} (h : Complete l) :
    ∃ a, lastOf l 0 = some a ∧
      initFromSegments ((collected l).filterMap id) = some (assembled m a) := by
  have hsome : ∀ i < m.pdu.count, ∃ a, lastOf l i = some a := fun i hi =>
    Option.isSome_iff_exists.mp (isSome_lastOf_iff.mpr (h i hi))
  obtain ⟨a, ha⟩ := hsome 0 count_pos
  refine ⟨a, ha, ?_⟩
  have hbytes : ((collected l).filterMap id).flatMap (·.upperTransportPdu) = m.transportPdu := by
    have hmap : (collected l).filterMap id = (List.range m.pdu.count).filterMap fun i =>
        (lastOf l i).map (·.received) := by
      rw [collected, List.filterMap_map]
      rfl
    rw [hmap, flatMap_filterMap _ _ _ (chunk m.transportPdu), flatMap_chunk]
    · refine List.take_of_length_le ?_
      show m.transportPdu.length ≤ 12 * ((m.transportPdu.length + 11) / 12)
      omega
    · intro i hi
      obtain ⟨b, hb⟩ := hsome i (List.mem_range.mp hi)
      refine ⟨b.received, by rw [hb]; rfl, ?_⟩
      show chunk m.transportPdu b.offset = _
      rw [offset_of_lastOf hb]
  obtain ⟨n, hn⟩ : ∃ n, m.pdu.count = n + 1 := ⟨_, (Nat.sub_add_cancel count_pos).symm⟩
  obtain ⟨rest, hrest⟩ : ∃ rest, (collected l).filterMap id = a.received :: rest := by
    rw [collected, hn, List.range_succ_eq_map, List.map_cons, ha]
    exact ⟨_, rfl⟩
  rw [hrest] at hbytes ⊢
  unfold initFromSegments
  dsimp only
  rw [hbytes]
  rfl

/-! ### One segment -/

/-- What the layer does with a network PDU that has a segment. -/
def give (node : Option (BitVec 16)) (layer : SigLowerTransportLayer) (a : m.Arrival) :
    SigLowerTransportLayer × Option SigLowerTransportPdu :=
  match a.networkPdu.segment with
  | some segment => layer.assembleSegmentedMessage node segment a.networkPdu
  | none => (layer, none)

/-- The layer has what came, and has not acknowledged a message with this SeqZero. -/
structure Holds (m : AccessMessage) (l : List m.Arrival) (layer : SigLowerTransportLayer) :
    Prop where
  array : (layer.incompleteSegments (getKey m.source m.pdu.sequenceZero)).getD
    (List.replicate m.pdu.count none) = collected l
  ack : (layer.acknowledgments m.source).map (·.sequenceZero) ≠ some m.pdu.sequenceZero

theorem count_received (a : m.Arrival) : a.received.count = m.pdu.count := by
  have hpos := @count_pos m
  have hle := @count_le m
  show (BitVec.ofNat 8 m.pdu.count - 1).toNat + 1 = m.pdu.count
  rw [lastSegmentNumber_eq, BitVec.toNat_setWidth, BitVec.toNat_ofNat]
  omega

theorem index_received (a : m.Arrival) : a.received.index = a.offset := by
  have hlt : a.offset < 32 := Nat.lt_of_lt_of_le a.offset_lt count_le
  show (BitVec.ofNat 8 a.offset).toNat = a.offset
  rw [BitVec.toNat_ofNat]
  omega

theorem isSingleSegment_received (a : m.Arrival) :
    a.received.isSingleSegment = true ↔ m.pdu.count = 1 := by
  have hcount := count_received a
  unfold SigSegmentedMessage.count at hcount
  unfold SigSegmentedMessage.isSingleSegment
  rw [decide_eq_true_eq]
  constructor
  · intro h
    rw [h] at hcount
    exact hcount.symm
  · intro h
    refine BitVec.eq_of_toNat_eq ?_
    show _ = 0
    omega

theorem give_eq {l : List m.Arrival} {layer : SigLowerTransportLayer} (h : Holds m l layer)
    (adr : BitVec 16) (a : m.Arrival) :
    give (some adr) layer a =
      if a.received.isSingleSegment then
        ((layer.setAcknowledgment m.source none).acknowledge (some adr) m.destination
          [some a.received], initFromSegments [a.received])
      else (layer.setAcknowledgment m.source none).collect (some adr) a.received a.networkPdu := by
  unfold give
  rw [a.segment_networkPdu]
  dsimp only
  unfold SigLowerTransportLayer.assembleSegmentedMessage
  exact if_neg h.ack

/-- A segment of a message of several goes to its place. -/
theorem collect_eq {l : List m.Arrival} {layer : SigLowerTransportLayer}
    (h : (layer.incompleteSegments (getKey m.source m.pdu.sequenceZero)).getD
      (List.replicate m.pdu.count none) = collected l) (adr : BitVec 16) (a : m.Arrival) :
    layer.collect (some adr) a.received a.networkPdu =
      if Complete (l ++ [a]) then
        ((layer.setIncomplete (getKey m.source m.pdu.sequenceZero) none).acknowledge (some adr)
          m.destination (collected (l ++ [a])),
          initFromSegments ((collected (l ++ [a])).filterMap id))
      else (layer.setIncomplete (getKey m.source m.pdu.sequenceZero)
        (some (collected (l ++ [a]))), none) := by
  have hkey : getKey a.networkPdu.source a.received.sequenceZero =
      getKey m.source m.pdu.sequenceZero := rfl
  have hin : ¬ (collected l).length ≤ a.received.index := by
    rw [length_collected, index_received]
    exact Nat.not_le_of_lt a.offset_lt
  unfold SigLowerTransportLayer.collect
  dsimp only
  rw [hkey, count_received, h, if_neg hin, index_received, ← collected_append]
  simp only [all_collected_iff]
  rfl

/-! ### Runs -/

/-- The layer after segments that do not complete the message. -/
def giveAll (node : Option (BitVec 16)) (layer : SigLowerTransportLayer) (l : List m.Arrival) :
    SigLowerTransportLayer := l.foldl (fun layer a => (give node layer a).1) layer

theorem Complete.append {l : List m.Arrival} (h : Complete l) (a : m.Arrival) :
    Complete (l ++ [a]) := by
  intro i hi
  obtain ⟨b, hb, hoff⟩ := h i hi
  exact ⟨b, List.mem_append_left [a] hb, hoff⟩

/-- With one segment, the first that comes completes. -/
theorem complete_of_count_one (h : m.pdu.count = 1) (l : List m.Arrival) (a : m.Arrival) :
    Complete (l ++ [a]) := by
  intro i hi
  have hlt := a.offset_lt
  exact ⟨a, List.mem_append_right l List.mem_cons_self, by omega⟩

/-- **One more segment**: the message is delivered with the last missing one. -/
theorem give_of_holds {l : List m.Arrival} {layer : SigLowerTransportLayer} (h : Holds m l layer)
    (hmissing : ¬ Complete l) (adr : BitVec 16) (a : m.Arrival) :
    (give (some adr) layer a).2 =
        (if Complete (l ++ [a]) then initFromSegments ((collected (l ++ [a])).filterMap id)
        else none) ∧
      (¬ Complete (l ++ [a]) → Holds m (l ++ [a]) (give (some adr) layer a).1) := by
  rw [give_eq h]
  by_cases hsingle : a.received.isSingleSegment = true
  · have hone := (isSingleSegment_received a).mp hsingle
    have hcomplete := complete_of_count_one hone l a
    have hnil : l = [] := by
      rcases List.eq_nil_or_concat' l with rfl | ⟨l', b, rfl⟩
      · rfl
      · exact absurd (complete_of_count_one hone l' b) hmissing
    have harray : (collected ([a])).filterMap id = [a.received] := by
      have hoff : a.offset = 0 := by
        have hlt := a.offset_lt
        omega
      have hzero : lastOf [a] 0 = some a := (lastOf_append [] a 0).trans (if_pos hoff)
      rw [collected, hone]
      show (List.map _ [0]).filterMap id = _
      rw [List.map_singleton, hzero]
      rfl
    subst hnil
    rw [if_pos hsingle, if_pos hcomplete, List.nil_append, harray]
    exact ⟨rfl, fun hno => absurd hcomplete hno⟩
  · have harray : ((layer.setAcknowledgment m.source none).incompleteSegments
        (getKey m.source m.pdu.sequenceZero)).getD (List.replicate m.pdu.count none) =
          collected l := h.array
    rw [if_neg hsingle, collect_eq harray]
    split_ifs with hcomplete
    · exact ⟨rfl, fun hno => absurd hcomplete hno⟩
    · refine ⟨rfl, fun _ => ⟨?_, ?_⟩⟩
      · show Option.getD (Function.update layer.incompleteSegments
          (getKey m.source m.pdu.sequenceZero) (some (collected (l ++ [a]))) _) _ = _
        rw [Function.update_self]
        rfl
      · show Option.map _ (Function.update layer.acknowledgments m.source none m.source) ≠ _
        rw [Function.update_self]
        exact fun hno => nomatch hno

/-- Nothing of an earlier message with this SeqZero is there. -/
structure Fresh (m : AccessMessage) (layer : SigLowerTransportLayer) : Prop where
  array : layer.incompleteSegments (getKey m.source m.pdu.sequenceZero) = none
  ack : (layer.acknowledgments m.source).map (·.sequenceZero) ≠ some m.pdu.sequenceZero

theorem holds_giveAll {layer : SigLowerTransportLayer} (h : Fresh m layer) (adr : BitVec 16)
    (l : List m.Arrival) (hmissing : ¬ Complete l) :
    Holds m l (giveAll (some adr) layer l) := by
  induction l using List.reverseRecOn with
  | nil =>
    refine ⟨?_, h.ack⟩
    show (layer.incompleteSegments _).getD _ = _
    rw [h.array, collected_nil]
    rfl
  | append_singleton l a ih =>
    have hbefore : ¬ Complete l := fun hc => hmissing (hc.append a)
    have hgive := (give_of_holds (ih hbefore) hbefore adr a).2 hmissing
    unfold giveAll at hgive ⊢
    rw [List.foldl_append]
    exact hgive

/-! ### The round trip -/

/-- What is delivered is the message. -/
structure Same (m : AccessMessage) (d : SigLowerTransportPdu) : Prop where
  bytes : d.upperTransportPdu = m.transportPdu
  akf : d.akf = m.keySet.akf
  aidAndMicSize : d.kind = .access m.keySet.aid m.micSize
  sequence : d.sequence = m.sequence.setWidth 32

/-- The message is delivered when the last missing segment comes, and not before. -/
def Delivers (m : AccessMessage) (l : List m.Arrival) : Option SigLowerTransportPdu → Prop
  | none => ¬ Complete l
  | some d => Complete l ∧ Same m d

theorem akf_assembled_iff (a : m.Arrival) :
    (assembled m a).akf = m.keySet.akf ↔ m.keySet ≠ .access 0 := by
  show decide (m.keySet.aid ≠ 0) = m.keySet.akf ↔ _
  cases hkey : m.keySet with
  | device => exact iff_of_true rfl fun h => nomatch h
  | access aid =>
    show decide (aid.setWidth 8 ≠ 0) = true ↔ _
    rw [decide_eq_true_eq]
    refine not_congr ⟨fun h => ?_, fun h => ?_⟩
    · have haid : aid = 0 := by
        refine BitVec.eq_of_getLsbD_eq fun i hi => ?_
        have hbit := congrArg (·.getLsbD i) h
        simpa [hi, Nat.lt_of_lt_of_le hi] using hbit
      rw [haid]
    · cases h
      rfl

theorem same_assembled_iff (a : m.Arrival) :
    Same m (assembled m a) ↔ m.keySet ≠ .access 0 ∧ a.sequence >>> 13 = m.sequence >>> 13 := by
  have hseq : (assembled m a).sequence = m.sequence.setWidth 32 ↔
      a.sequence >>> 13 = m.sequence >>> 13 := sequenceFrom_eq_iff a.sequence m.sequence
  constructor
  · intro h
    exact ⟨(akf_assembled_iff a).mp h.akf, hseq.mp h.sequence⟩
  · intro h
    exact ⟨rfl, (akf_assembled_iff a).mpr h.1, rfl, hseq.mpr h.2⟩

end AccessMessage

open AccessMessage

/-- For every message and every order of its segments: the last missing one delivers the message,
the same as it was sent, exactly when its key is not an application key with AID 0 and the copy of
segment 0 came with a sequence number in the block of the message's own. -/
theorem segmentation_roundTrip_iff (m : AccessMessage) (adr : BitVec 16)
    (layer : SigLowerTransportLayer) (hfresh : Fresh m layer) (earlier : List m.Arrival)
    (a : m.Arrival) (hmissing : ¬ Complete earlier) :
    Delivers m (earlier ++ [a]) (give (some adr) (giveAll (some adr) layer earlier) a).2 ↔
      (Complete (earlier ++ [a]) → m.keySet ≠ .access 0 ∧
        ∀ b, lastOf (earlier ++ [a]) 0 = some b → b.sequence >>> 13 = m.sequence >>> 13) := by
  rw [(give_of_holds (holds_giveAll hfresh adr earlier hmissing) hmissing adr a).1]
  by_cases hcomplete : Complete (earlier ++ [a])
  · obtain ⟨b, hb, hmessage⟩ := initFromSegments_collected hcomplete
    rw [if_pos hcomplete, hmessage, imp_iff_right hcomplete, hb]
    constructor
    · intro h
      obtain ⟨hkey, hseq⟩ := (same_assembled_iff b).mp h.2
      exact ⟨hkey, fun c hc => Option.some.inj hc ▸ hseq⟩
    · intro h
      exact ⟨hcomplete, (same_assembled_iff b).mpr ⟨h.1, h.2 b rfl⟩⟩
  · rw [if_neg hcomplete]
    exact iff_of_true hcomplete fun h => absurd h hcomplete

theorem length_octets_pos : 1 ≤ (List.replicate 13 (1 : Byte)).length := by decide

theorem length_octets_le : (List.replicate 13 (1 : Byte)).length ≤ 384 := by decide

/-- Thirteen octets, in two segments. -/
def twoSegments : AccessMessage where
  opCode := 0x8202
  source := 2
  destination := 1
  keySet := .access 0x26
  sequence := 8191
  aszmic := false
  transportPdu := List.replicate 13 1
  length_pos := length_octets_pos
  length_le := length_octets_le

theorem fresh_init (m : AccessMessage) : Fresh m .init := ⟨rfl, fun h => nomatch h⟩

theorem twoSegments_window {q : BitVec 24} (h : 8191 ≤ q.toNat ∧ q.toNat ≤ 16382) :
    twoSegments.sequence.toNat ≤ q.toNat ∧ q.toNat ≤ twoSegments.sequence.toNat + 8191 := h

theorem twoSegments_window_8191 : 8191 ≤ (8191#24).toNat ∧ (8191#24).toNat ≤ 16382 := by decide

theorem twoSegments_window_8192 : 8191 ≤ (8192#24).toNat ∧ (8192#24).toNat ≤ 16382 := by decide

theorem twoSegments_window_8193 : 8191 ≤ (8193#24).toNat ∧ (8193#24).toNat ≤ 16382 := by decide

theorem twoSegments_zero : 0 < twoSegments.pdu.count := by decide

theorem twoSegments_one : 1 < twoSegments.pdu.count := by decide

def first : twoSegments.Arrival :=
  ⟨0, 8191, twoSegments_zero, twoSegments_window twoSegments_window_8191⟩

def second : twoSegments.Arrival :=
  ⟨1, 8192, twoSegments_one, twoSegments_window twoSegments_window_8192⟩

/-- The first segment once more. -/
def firstAgain : twoSegments.Arrival :=
  ⟨0, 8193, twoSegments_zero, twoSegments_window twoSegments_window_8193⟩

/-- The second segment comes first, with a sequence number behind 8192. -/
theorem segmentation_roundTrip_sample :
    Delivers twoSegments [second, first]
      (give (some 1) (giveAll (some 1) .init [second]) first).2 :=
  (segmentation_roundTrip_iff twoSegments 1 .init (fresh_init _) [second] first
    (by decide)).mpr fun _ => ⟨by decide, fun b hb => by
      have hlast : lastOf ([second] ++ [first]) 0 = some first := rfl
      rw [hlast] at hb
      cases hb
      decide⟩

/-- The first segment comes last, in a network PDU behind 8192: the sequence number that is
delivered is 8192 too large. -/
theorem segmentation_roundTrip_refuted :
    ¬ ∀ (m : AccessMessage) (adr : BitVec 16) (layer : SigLowerTransportLayer), Fresh m layer →
      ∀ (earlier : List m.Arrival) (a : m.Arrival), ¬ Complete earlier →
        Delivers m (earlier ++ [a]) (give (some adr) (giveAll (some adr) layer earlier) a).2 := by
  intro hall
  have hdelivers := hall twoSegments 1 .init (fresh_init _) [second] firstAgain (by decide)
  exact absurd hdelivers.2.sequence (by decide)

end LowerTransport

end PirMesh
