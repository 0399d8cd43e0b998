import PirMesh.Library.Rounding
import PirMesh.Library.Run

/-! # Phone — The proxy protocol (`ProxyProtocolHandler.m`)

A PDU goes to the proxy in one packet or in segments, and the handler puts the segments that
come from it together in its buffer.  How many segments there are is a quotient in single
precision.  As long as it is at most one too large for the octets, and not one, the handler of the
other side gets the PDU back (`roundTrips_iff`); up to `2 ^ 24` octets it is right.  Whatever comes
in, a PDU is put together from one first segment and all that belongs to it
(`sequence_reassembleData`). -/

namespace PirMesh.ProxyProtocol

abbrev Byte := BitVec 8

/-! ### Packets -/

inductive SigPduType
  | networkPdu
  | meshBeacon
  | proxyConfiguration
  | provisioningPdu
  deriving DecidableEq, Repr

inductive SAR
  | completeMessage
  | firstSegment
  | continuation
  | lastSegment
  deriving DecidableEq, Repr

def SigPduType.rawValue : SigPduType → Byte
  | .networkPdu => 0
  | .meshBeacon => 1
  | .proxyConfiguration => 2
  | .provisioningPdu => 3

def SAR.rawValue : SAR → Byte
  | .completeMessage => 0
  | .firstSegment => 1
  | .continuation => 2
  | .lastSegment => 3

/-- Values that no type has are read as 0. -/
def getPduTypeFromeData : List Byte → SigPduType
  | [] => .networkPdu
  | header :: _ =>
    let value := header &&& 0x3f
    if value = 0 then .networkPdu
    else if value = 1 then .meshBeacon
    else if value = 2 then .proxyConfiguration
    else if value = 3 then .provisioningPdu
    else .networkPdu

def getSAPFromeData : List Byte → SAR
  | [] => .completeMessage
  | header :: _ =>
    let tem := header >>> 6
    if tem = 0 then .completeMessage
    else if tem = 1 then .firstSegment
    else if tem = 2 then .continuation
    else .lastSegment

def getSARValueWithSAR (sar : SAR) : Byte := sar.rawValue <<< 6

/-! ### Segments -/

/-- `nil` where the range is not in the data, which is an exception. -/
def subdataWithRange (data : List Byte) (location length : ℕ) : Option (List Byte) :=
  if location + length ≤ data.length then some ((data.drop location).take length) else none

/-- `data.length / (float)(mtu - 1)`: both are single precision, and the quotient too. -/
def quotient (length mtu : ℕ) : ℚ :=
  Rounding.nearest 24 (Rounding.nearest 24 length / Rounding.nearest 24 (mtu - 1 : ℕ))

def segmentCount (length mtu : ℕ) : ℕ := ⌈quotient length mtu⌉₊

/-- A packet with its header. -/
def packetOf (sar : SAR) (messageType : SigPduType) (packetData : List Byte) : List Byte :=
  (getSARValueWithSAR sar ||| messageType.rawValue) :: packetData

def sarOf (count i : ℕ) : SAR :=
  if 0 < i then if i = count - 1 then .lastSegment else .continuation else .firstSegment

/-- Segment `i`, for an `mtu` of at least 2. -/
def segment (data : List Byte) (messageType : SigPduType) (mtu count i : ℕ) :
    Option (List Byte) :=
  let packetData :=
    if i = count - 1 then
      subdataWithRange data (i * (mtu - 1)) (data.length - i * (mtu - 1))
    else subdataWithRange data (i * (mtu - 1)) (mtu - 1)
  packetData.map (packetOf (sarOf count i) messageType)

/-- The index of the loop is an `int`, which does not reach `2 ^ 31`. -/
def segmentWithData (data : List Byte) (messageType : SigPduType) (mtu : ℕ) :
    Option (List (List Byte)) :=
  if data.length ≤ mtu - 1 then
    some [packetOf .completeMessage messageType data]
  else
    let count := segmentCount data.length mtu
    if 2 ^ 31 ≤ count then none
    else (List.range count).mapM (segment data messageType mtu count)

/-! ### Reassembly -/

structure SigPudModel where
  pduType : SigPduType
  pduData : List Byte
  deriving DecidableEq, Repr

structure ProxyProtocolHandler where
  buffer : Option (List Byte)
  bufferType : SigPduType
  deriving DecidableEq, Repr

def ProxyProtocolHandler.initial : ProxyProtocolHandler := ⟨none, .networkPdu⟩

/-- A packet that does not need a buffer. -/
def Begins (sar : SAR) : Prop := sar = .completeMessage ∨ sar = .firstSegment

instance (sar : SAR) : Decidable (Begins sar) := inferInstanceAs (Decidable (_ ∨ _))

def reassembleData (s : ProxyProtocolHandler) (data : List Byte) :
    Option SigPudModel × ProxyProtocolHandler :=
  if data.length = 0 then (none, s)
  else
    let sar := getSAPFromeData data
    let messageType := getPduTypeFromeData data
    if (s.buffer = none ∨ s.buffer = some []) ∧ ¬ Begins sar then (none, s)
    else if s.bufferType ≠ messageType ∧ ¬ Begins sar then (none, s)
    else
      let s := if s.buffer ≠ none ∧ Begins sar then ⟨none, .networkPdu⟩ else s
      let buffer := if Begins sar then some [] else s.buffer
      let buffer := buffer.map (· ++ data.drop 1)
      if sar = .completeMessage ∨ sar = .lastSegment then
        (some ⟨messageType, buffer.getD []⟩, ⟨none, .networkPdu⟩)
      else (none, ⟨buffer, messageType⟩)

/-- The handler after a packet. -/
def feed (s : ProxyProtocolHandler) (data : List Byte) : ProxyProtocolHandler :=
  (reassembleData s data).2

/-- What the packets give one after the other. -/
def outputs : ProxyProtocolHandler → List (List Byte) → List (Option SigPudModel)
  | _, [] => []
  | s, data :: packets => (reassembleData s data).1 :: outputs (feed s data) packets

/-! ### What they are for -/

/-- Nothing comes before the last packet, and then the PDU, whatever was in the buffer. -/
def RoundTrips (data : List Byte) (messageType : SigPduType) (mtu : ℕ) : Prop :=
  ∃ packets, segmentWithData data messageType mtu = some packets ∧ packets ≠ [] ∧
    ∀ s, outputs s packets =
      List.replicate (packets.length - 1) none ++ [some ⟨messageType, data⟩]

/-- One packet is enough; or the quotient in single precision is above one, at most one above the
whole quotient, and an `int`. -/
def CountsRight (length mtu : ℕ) : Prop :=
  length ≤ mtu - 1 ∨
    1 < quotient length mtu ∧ quotient length mtu ≤ (length / (mtu - 1) : ℕ) + 1 ∧
      quotient length mtu ≤ 2 ^ 31 - 1

/-- A first segment and the continuations of its type.  Packets without an octet, and segments of
another type, come to nothing. -/
inductive Sequence (messageType : SigPduType) : List (List Byte) → List Byte → Prop
  | first {data : List Byte} : data ≠ [] → getSAPFromeData data = .firstSegment →
      getPduTypeFromeData data = messageType → Sequence messageType [data] (data.drop 1)
  | continuation {packets : List (List Byte)} {octets data : List Byte} :
      Sequence messageType packets octets → data ≠ [] → getSAPFromeData data = .continuation →
      getPduTypeFromeData data = messageType →
      Sequence messageType (packets ++ [data]) (octets ++ data.drop 1)
  | other {packets : List (List Byte)} {octets data : List Byte} :
      Sequence messageType packets octets →
      (data ≠ [] → ¬ Begins (getSAPFromeData data) ∧ getPduTypeFromeData data ≠ messageType) →
      Sequence messageType (packets ++ [data]) octets

/-- A complete message, or a last segment right behind such a sequence. -/
def Whole (packets : List (List Byte)) (data : List Byte) (m : SigPudModel) : Prop :=
  data ≠ [] ∧ getPduTypeFromeData data = m.pduType ∧
    (getSAPFromeData data = .completeMessage ∧ m.pduData = data.drop 1 ∨
      getSAPFromeData data = .lastSegment ∧
        ∃ before sequence octets, packets = before ++ sequence ∧
          Sequence m.pduType sequence octets ∧ m.pduData = octets ++ data.drop 1)

/-! ### One packet -/

section Packet

variable {s : ProxyProtocolHandler} {data b : List Byte}

theorem packetOf_ne_nil (sar : SAR) (messageType : SigPduType) (payload : List Byte) :
    packetOf sar messageType payload ≠ [] := List.cons_ne_nil _ _

theorem getSAPFromeData_packetOf (sar : SAR) (messageType : SigPduType) (payload : List Byte) :
    getSAPFromeData (packetOf sar messageType payload) = sar := by
  cases sar <;> cases messageType <;> rfl

theorem getPduTypeFromeData_packetOf (sar : SAR) (messageType : SigPduType)
    (payload : List Byte) :
    getPduTypeFromeData (packetOf sar messageType payload) = messageType := by
  cases sar <;> cases messageType <;> rfl

/-- A packet that begins a message, whatever is in the buffer. -/
theorem reassembleData_begins (hne : data ≠ []) (h : Begins (getSAPFromeData data)) :
    reassembleData s data =
      if getSAPFromeData data = .completeMessage then
        (some ⟨getPduTypeFromeData data, data.drop 1⟩, .initial)
      else (none, ⟨some (data.drop 1), getPduTypeFromeData data⟩) := by
  have hlen : ¬ data.length = 0 := fun h0 => hne (List.length_eq_zero_iff.mp h0)
  have hnot : ¬ ((s.buffer = none ∨ s.buffer = some []) ∧ ¬ Begins (getSAPFromeData data)) :=
    fun hc => hc.2 h
  have hnot' : ¬ (s.bufferType ≠ getPduTypeFromeData data ∧ ¬ Begins (getSAPFromeData data)) :=
    fun hc => hc.2 h
  unfold reassembleData
  rw [if_neg hlen]
  dsimp only
  rw [if_neg hnot, if_neg hnot', if_pos h]
  rcases h with hc | hf
  · rw [hc, if_pos (.inl rfl), if_pos rfl]
    rfl
  · rw [hf, if_neg (by decide), if_neg (by decide)]
    rfl

/-- A segment of the message in the buffer. -/
theorem reassembleData_follows (hne : data ≠ []) (h : ¬ Begins (getSAPFromeData data))
    (hb : s.buffer = some b) (hbne : b ≠ []) (htype : s.bufferType = getPduTypeFromeData data) :
    reassembleData s data =
      if getSAPFromeData data = .lastSegment then
        (some ⟨getPduTypeFromeData data, b ++ data.drop 1⟩, .initial)
      else (none, ⟨some (b ++ data.drop 1), getPduTypeFromeData data⟩) := by
  have hlen : ¬ data.length = 0 := fun h0 => hne (List.length_eq_zero_iff.mp h0)
  have hnot : ¬ ((s.buffer = none ∨ s.buffer = some []) ∧ ¬ Begins (getSAPFromeData data)) := by
    rintro ⟨hnone | hnil, -⟩
    · rw [hb] at hnone
      exact Option.some_ne_none b hnone
    · rw [hb] at hnil
      exact hbne (Option.some.inj hnil)
  have hnew : ¬ (s.buffer ≠ none ∧ Begins (getSAPFromeData data)) := fun hc => h hc.2
  have hcomplete : getSAPFromeData data ≠ .completeMessage := fun hc => h (.inl hc)
  unfold reassembleData
  rw [if_neg hlen]
  dsimp only
  rw [if_neg hnot, if_neg fun hc => hc.1 htype, if_neg hnew, if_neg h, hb]
  simp only [hcomplete, false_or]
  rfl

/-- A segment that does not belong to the buffer is disregarded. -/
theorem reassembleData_refuses (h : ¬ Begins (getSAPFromeData data))
    (hs : (s.buffer = none ∨ s.buffer = some []) ∨ s.bufferType ≠ getPduTypeFromeData data) :
    reassembleData s data = (none, s) := by
  unfold reassembleData
  by_cases hlen : data.length = 0
  · rw [if_pos hlen]
  rw [if_neg hlen]
  dsimp only
  by_cases hempty : s.buffer = none ∨ s.buffer = some []
  · rw [if_pos ⟨hempty, h⟩]
  · rw [if_neg fun hc => hempty hc.1, if_pos ⟨hs.resolve_left hempty, h⟩]

end Packet

/-! ### Any packets -/

/-- What is in the buffer is a sequence that came last. -/
def Holds (packets : List (List Byte)) (s : ProxyProtocolHandler) : Prop :=
  ∀ b, s.buffer = some b → b ≠ [] →
    ∃ before sequence, packets = before ++ sequence ∧ Sequence s.bufferType sequence b

variable {s : ProxyProtocolHandler} {packets : List (List Byte)} {data : List Byte}

/-- A packet that comes to nothing. -/
theorem Holds.other (h : Holds packets s)
    (hother : data ≠ [] → ¬ Begins (getSAPFromeData data) ∧
      ((s.buffer = none ∨ s.buffer = some []) ∨ s.bufferType ≠ getPduTypeFromeData data)) :
    Holds (packets ++ [data]) s := by
  intro b hb hbne
  obtain ⟨before, sequence, rfl, hseq⟩ := h b hb hbne
  refine ⟨before, sequence ++ [data], List.append_assoc _ _ _, hseq.other fun hne => ?_⟩
  obtain ⟨hbegins, hempty | htype⟩ := hother hne
  · rw [hb] at hempty
    rcases hempty with hnone | hnil
    · exact absurd hnone (Option.some_ne_none b)
    · exact absurd (Option.some.inj hnil) hbne
  · exact ⟨hbegins, Ne.symm htype⟩

/-- **One packet** keeps the sequence, and a PDU is whole. -/
theorem Holds.reassembleData (h : Holds packets s) (data : List Byte) :
    Holds (packets ++ [data]) (feed s data) ∧
      ∀ m, (reassembleData s data).1 = some m → Whole packets data m := by
  have hinitial : Holds (packets ++ [data]) .initial := fun b hb => absurd hb nofun
  unfold feed
  by_cases hne : data = []
  · subst hne
    exact ⟨h.other fun hc => absurd rfl hc, nofun⟩
  by_cases hbegins : Begins (getSAPFromeData data)
  · rw [reassembleData_begins hne hbegins]
    by_cases hcomplete : getSAPFromeData data = .completeMessage
    · rw [if_pos hcomplete]
      refine ⟨hinitial, fun m hm => ?_⟩
      obtain rfl := Option.some.inj hm
      exact ⟨hne, rfl, .inl ⟨hcomplete, rfl⟩⟩
    · rw [if_neg hcomplete]
      refine ⟨fun b hb _ => ?_, nofun⟩
      obtain rfl : data.drop 1 = b := Option.some.inj hb
      exact ⟨packets, [data], rfl, .first hne (hbegins.resolve_left hcomplete) rfl⟩
  by_cases hs : (s.buffer = none ∨ s.buffer = some []) ∨ s.bufferType ≠ getPduTypeFromeData data
  · rw [reassembleData_refuses hbegins hs]
    exact ⟨h.other fun _ => ⟨hbegins, hs⟩, nofun⟩
  -- the packet goes behind what is in the buffer
  obtain ⟨hempty, htype⟩ := not_or.mp hs
  obtain ⟨hnone, hnil⟩ := not_or.mp hempty
  obtain ⟨b, hb⟩ := Option.ne_none_iff_exists'.mp hnone
  have hbne : b ≠ [] := fun h0 => hnil (hb.trans (congrArg some h0))
  obtain ⟨before, sequence, hpackets, hseq⟩ := h b hb hbne
  rw [not_not.mp htype] at hseq
  rw [reassembleData_follows hne hbegins hb hbne (not_not.mp htype)]
  by_cases hlast : getSAPFromeData data = .lastSegment
  · rw [if_pos hlast]
    refine ⟨hinitial, fun m hm => ?_⟩
    obtain rfl := Option.some.inj hm
    exact ⟨hne, rfl, .inr ⟨hlast, before, sequence, b, hpackets, hseq, rfl⟩⟩
  · have hcont : getSAPFromeData data = .continuation := by
      cases hsar : getSAPFromeData data with
      | completeMessage => exact absurd (.inl hsar) hbegins
      | firstSegment => exact absurd (.inr hsar) hbegins
      | continuation => rfl
      | lastSegment => exact absurd hsar hlast
    rw [if_neg hlast]
    refine ⟨fun b' hb' _ => ?_, nofun⟩
    obtain rfl : b ++ data.drop 1 = b' := Option.some.inj hb'
    refine ⟨before, sequence ++ [data], ?_, hseq.continuation hne hcont rfl⟩
    rw [hpackets, List.append_assoc]

/-- **Packets in any order.** -/
theorem sequence_reassembleData (packets : List (List Byte)) (data : List Byte) (m : SigPudModel)
    (hm : (reassembleData (packets.foldl feed .initial) data).1 = some m) :
    Whole packets data m := by
  have hinitial : Holds [] .initial := fun b hb => absurd hb nofun
  have hholds : Holds packets (packets.foldl feed .initial) :=
    Run.foldl_hist (P := Holds) hinitial (fun packets s data h => (h.reassembleData data).1) packets
  exact (hholds.reassembleData data).2 m hm

/-! ### The packets of a PDU -/

theorem mapM_eq_some {α β : Type} {f : α → Option β} {l : List α} {l' : List β} :
    l.mapM f = some l' ↔ List.Forall₂ (fun a b => f a = some b) l l' := by
  induction l generalizing l' with
  | nil =>
    rw [List.mapM_nil, List.forall₂_nil_left_iff]
    exact ⟨fun h => (Option.some.inj h).symm, fun h => congrArg some h.symm⟩
  | cons a l ih =>
    rw [List.mapM_cons, List.forall₂_cons_left_iff]
    constructor
    · intro h
      obtain ⟨b, hb, hrest⟩ := Option.bind_eq_some_iff.mp h
      obtain ⟨bs, hbs, heq⟩ := Option.bind_eq_some_iff.mp hrest
      exact ⟨b, bs, hb, ih.mp hbs, (Option.some.inj heq).symm⟩
    · rintro ⟨b, bs, hb, hbs, rfl⟩
      rw [hb, ih.mpr hbs]
      rfl

theorem mapM_range_succ {β : Type} {f : ℕ → Option β} {n : ℕ} {l : List β} {b : β}
    (h : (List.range n).mapM f = some l) (hb : f n = some b) :
    (List.range (n + 1)).mapM f = some (l ++ [b]) := by
  rw [List.range_succ, mapM_eq_some]
  exact List.rel_append (mapM_eq_some.mp h) (.cons hb .nil)

theorem exists_of_mapM {α β : Type} {f : α → Option β} {l : List α} {l' : List β}
    (h : l.mapM f = some l') {a : α} (ha : a ∈ l) : ∃ b, f a = some b := by
  have hall := mapM_eq_some.mp h
  induction hall with
  | nil => exact absurd ha List.not_mem_nil
  | cons hb hrest ih =>
    rcases List.mem_cons.mp ha with rfl | hmem
    · exact ⟨_, hb⟩
    · exact ih (mapM_eq_some.mpr hrest) hmem

theorem outputs_append (s : ProxyProtocolHandler) (l l' : List (List Byte)) :
    outputs s (l ++ l') = outputs s l ++ outputs (l.foldl feed s) l' := by
  induction l generalizing s with
  | nil => rfl
  | cons data l ih => exact congrArg _ (ih (feed s data))

section Segments

variable {data payload b : List Byte} {messageType : SigPduType} {mtu count i : ℕ}

/-- The packets that `segment` makes, at the handler. -/
theorem reassembleData_complete (s : ProxyProtocolHandler) :
    reassembleData s (packetOf .completeMessage messageType payload) =
      (some ⟨messageType, payload⟩, .initial) := by
  have hsar := getSAPFromeData_packetOf .completeMessage messageType payload
  rw [reassembleData_begins (packetOf_ne_nil _ _ _) (.inl hsar), if_pos hsar,
    getPduTypeFromeData_packetOf]
  rfl

theorem reassembleData_first (s : ProxyProtocolHandler) :
    reassembleData s (packetOf .firstSegment messageType payload) =
      (none, ⟨some payload, messageType⟩) := by
  have hsar := getSAPFromeData_packetOf .firstSegment messageType payload
  rw [reassembleData_begins (packetOf_ne_nil _ _ _) (.inr hsar), hsar, if_neg (by decide),
    getPduTypeFromeData_packetOf]
  rfl

theorem reassembleData_continuation (hb : b ≠ []) :
    reassembleData ⟨some b, messageType⟩ (packetOf .continuation messageType payload) =
      (none, ⟨some (b ++ payload), messageType⟩) := by
  have hsar := getSAPFromeData_packetOf .continuation messageType payload
  have htype := getPduTypeFromeData_packetOf .continuation messageType payload
  have hbegins : ¬ Begins .continuation := by decide
  rw [reassembleData_follows (packetOf_ne_nil _ _ _) (hsar.symm ▸ hbegins) rfl hb htype.symm, hsar,
    if_neg (by decide), htype]
  rfl

theorem reassembleData_last (hb : b ≠ []) :
    reassembleData ⟨some b, messageType⟩ (packetOf .lastSegment messageType payload) =
      (some ⟨messageType, b ++ payload⟩, .initial) := by
  have hsar := getSAPFromeData_packetOf .lastSegment messageType payload
  have htype := getPduTypeFromeData_packetOf .lastSegment messageType payload
  have hbegins : ¬ Begins .lastSegment := by decide
  rw [reassembleData_follows (packetOf_ne_nil _ _ _) (hsar.symm ▸ hbegins) rfl hb htype.symm, hsar,
    if_pos rfl, htype]
  rfl

theorem segment_inner (hi : i ≠ count - 1) (hle : i * (mtu - 1) + (mtu - 1) ≤ data.length) :
    segment data messageType mtu count i =
      some (packetOf (sarOf count i) messageType
        ((data.drop (i * (mtu - 1))).take (mtu - 1))) := by
  unfold segment subdataWithRange
  dsimp only
  rw [if_neg hi, if_pos hle]
  rfl

theorem segment_last (hi : i = count - 1) (hle : i * (mtu - 1) ≤ data.length) :
    segment data messageType mtu count i =
      some (packetOf (sarOf count i) messageType (data.drop (i * (mtu - 1)))) := by
  have hall : (data.drop (i * (mtu - 1))).take (data.length - i * (mtu - 1)) =
      data.drop (i * (mtu - 1)) := List.take_of_length_le (le_of_eq List.length_drop)
  have hin : i * (mtu - 1) + (data.length - i * (mtu - 1)) ≤ data.length :=
    le_of_eq (Nat.add_sub_cancel' hle)
  unfold segment subdataWithRange
  dsimp only
  rw [if_pos hi, if_pos hin, hall]
  rfl

/-- The last segment has a place in the data only if it begins there. -/
theorem le_of_segment_last {p : List Byte} (hi : i = count - 1)
    (h : segment data messageType mtu count i = some p) : i * (mtu - 1) ≤ data.length := by
  by_contra hlt
  have hout : ¬ i * (mtu - 1) + (data.length - i * (mtu - 1)) ≤ data.length :=
    fun hle => hlt ((Nat.le_add_right _ _).trans hle)
  unfold segment subdataWithRange at h
  dsimp only at h
  rw [if_pos hi, if_neg hout] at h
  exact Option.some_ne_none p h.symm

/-- Segments before the last lie in the data. -/
theorem inner_le (hlen : (count - 1) * (mtu - 1) ≤ data.length) (hi : i < count - 1) :
    i * (mtu - 1) + (mtu - 1) ≤ data.length := by
  have hnext := Nat.mul_le_mul_right (mtu - 1) (Nat.succ_le_of_lt hi)
  rw [Nat.succ_mul] at hnext
  exact hnext.trans hlen

/-- What the segments so far have put into the buffer. -/
theorem take_ne_nil (hmtu : 2 ≤ mtu) (n : ℕ) (hlen : (n + 1) * (mtu - 1) ≤ data.length) :
    data.take ((n + 1) * (mtu - 1)) ≠ [] := by
  have hpos : 0 < (n + 1) * (mtu - 1) := Nat.mul_pos (Nat.succ_pos n) (by omega)
  refine List.length_pos_iff.mp ?_
  rw [List.length_take, Nat.min_eq_left hlen]
  exact hpos

/-- **The segments but the last** give nothing and lie in the buffer. -/
theorem outputs_segments (hmtu : 2 ≤ mtu) (hlen : (count - 1) * (mtu - 1) ≤ data.length)
    (messageType : SigPduType) {n : ℕ} (hn : n + 1 ≤ count - 1) :
    ∃ packets, (List.range (n + 1)).mapM (segment data messageType mtu count) = some packets ∧
      packets.length = n + 1 ∧ ∀ s, outputs s packets = List.replicate (n + 1) none ∧
        packets.foldl feed s = ⟨some (data.take ((n + 1) * (mtu - 1))), messageType⟩ := by
  -- after `n + 1` segments the buffer holds their octets
  induction n with
  | zero =>
    have hle := inner_le hlen (Nat.lt_of_succ_le hn)
    have hfirst : sarOf count 0 = .firstSegment := if_neg (Nat.lt_irrefl 0)
    have hsegment : segment data messageType mtu count 0 = _ := segment_inner (by omega) hle
    rw [hfirst] at hsegment
    refine ⟨[_], mapM_eq_some.mpr (.cons hsegment .nil), rfl, fun s => ⟨?_, ?_⟩⟩
    · rw [outputs, reassembleData_first]
      rfl
    · rw [List.foldl_cons, feed, reassembleData_first, Nat.zero_mul, Nat.zero_add, Nat.one_mul]
      rfl
  | succ n ih =>
    obtain ⟨packets, hpackets, hcount, hrun⟩ := ih (Nat.le_of_succ_le hn)
    have hlt : n + 1 < count - 1 := hn
    have hle := inner_le hlen hlt
    have hcont : sarOf count (n + 1) = .continuation := by
      rw [sarOf, if_pos (Nat.succ_pos n), if_neg (Nat.ne_of_lt hlt)]
    have hsegment : segment data messageType mtu count (n + 1) = _ :=
      segment_inner (Nat.ne_of_lt hlt) hle
    rw [hcont] at hsegment
    have hne := take_ne_nil hmtu n ((Nat.le_add_right _ _).trans hle)
    refine ⟨_, mapM_range_succ hpackets hsegment, ?_, fun s => ?_⟩
    · rw [List.length_append, hcount]
      rfl
    · obtain ⟨hout, hstate⟩ := hrun s
      rw [outputs_append, List.foldl_append, hout, hstate, outputs, List.foldl_cons, feed,
        reassembleData_continuation hne, ← List.take_add, ← Nat.succ_mul]
      exact ⟨List.replicate_succ'.symm, rfl⟩

/-- **Enough segments**, at least two, and the last one begins in the data. -/
theorem roundTrips_of_count (hmtu : 2 ≤ mtu) (hlong : ¬ data.length ≤ mtu - 1)
    (hint : segmentCount data.length mtu < 2 ^ 31) (h2 : 2 ≤ segmentCount data.length mtu)
    (hlen : (segmentCount data.length mtu - 1) * (mtu - 1) ≤ data.length) :
    RoundTrips data messageType mtu := by
  unfold RoundTrips segmentWithData
  rw [if_neg hlong]
  dsimp only
  rw [if_neg (Nat.not_le.mpr hint)]
  generalize segmentCount data.length mtu = count at h2 hlen
  obtain ⟨n, rfl⟩ : ∃ n, count = n + 2 := ⟨count - 2, by omega⟩
  have hlast : sarOf (n + 2) (n + 1) = .lastSegment := by
    rw [sarOf, if_pos (Nat.succ_pos n)]
    exact if_pos rfl
  have hsegment : segment data messageType mtu (n + 2) (n + 1) = _ := segment_last rfl hlen
  rw [hlast] at hsegment
  have hne := take_ne_nil hmtu n hlen
  obtain ⟨packets, hpackets, hcount, hrun⟩ := outputs_segments hmtu hlen messageType le_rfl
  refine ⟨_, mapM_range_succ hpackets hsegment,
    List.append_ne_nil_of_right_ne_nil _ (List.cons_ne_nil _ _), fun s => ?_⟩
  obtain ⟨hout, hstate⟩ := hrun s
  rw [outputs_append, hout, hstate, outputs, reassembleData_last hne, List.length_append, hcount,
    List.take_append_drop]
  rfl

/-- What must hold of the number of segments. -/
theorem count_of_roundTrips (hlong : ¬ data.length ≤ mtu - 1)
    (h : RoundTrips data messageType mtu) :
    segmentCount data.length mtu < 2 ^ 31 ∧ 2 ≤ segmentCount data.length mtu ∧
      (segmentCount data.length mtu - 1) * (mtu - 1) ≤ data.length := by
  obtain ⟨packets, hpackets, hne, hout⟩ := h
  unfold segmentWithData at hpackets
  rw [if_neg hlong] at hpackets
  dsimp only at hpackets
  generalize segmentCount data.length mtu = count at hpackets
  by_cases hint : 2 ^ 31 ≤ count
  · rw [if_pos hint] at hpackets
    exact absurd hpackets.symm (Option.some_ne_none _)
  rw [if_neg hint] at hpackets
  have hall := mapM_eq_some.mp hpackets
  match count, hint, hall with
  | 0, _, hall => exact absurd (List.forall₂_nil_left_iff.mp hall) hne
  | 1, _, hall =>
    -- one segment is a first segment
    obtain ⟨p, _, hp, hnil, rfl⟩ := List.forall₂_cons_left_iff.mp hall
    obtain rfl := List.forall₂_nil_left_iff.mp hnil
    have hfirst : sarOf 1 0 = .firstSegment := rfl
    rw [segment_last rfl (by omega), hfirst] at hp
    obtain rfl := Option.some.inj hp
    have hone := hout .initial
    rw [outputs, reassembleData_first] at hone
    exact absurd (List.head_eq_of_cons_eq hone) nofun
  | n + 2, hint, hall =>
    refine ⟨Nat.lt_of_not_le hint, Nat.le_add_left 2 n, ?_⟩
    have hmem := List.mem_range.mpr (Nat.lt_succ_self (n + 1))
    obtain ⟨p, hp⟩ := exists_of_mapM (mapM_eq_some.mpr hall) hmem
    exact le_of_segment_last rfl hp

end Segments

/-! ### The number of segments -/

variable {length mtu : ℕ}

/-- The condition, of the number of segments. -/
theorem countsRight_iff (hmtu : 2 ≤ mtu) (hlong : ¬ length ≤ mtu - 1) :
    CountsRight length mtu ↔ segmentCount length mtu < 2 ^ 31 ∧ 2 ≤ segmentCount length mtu ∧
      (segmentCount length mtu - 1) * (mtu - 1) ≤ length := by
  have hpos : 0 < mtu - 1 := by omega
  have htwo : 2 ≤ segmentCount length mtu ↔ 1 < quotient length mtu := by
    have hceil := Nat.lt_ceil (n := 1) (a := quotient length mtu)
    rw [Nat.cast_one] at hceil
    exact hceil
  have hin : (segmentCount length mtu - 1) * (mtu - 1) ≤ length ↔
      quotient length mtu ≤ (length / (mtu - 1) : ℕ) + 1 := by
    have hceil := Nat.ceil_le (n := length / (mtu - 1) + 1) (a := quotient length mtu)
    push_cast at hceil
    rw [← Nat.le_div_iff_mul_le hpos, ← hceil]
    exact Nat.sub_le_iff_le_add
  have hint : segmentCount length mtu < 2 ^ 31 ↔ quotient length mtu ≤ 2 ^ 31 - 1 := by
    have hceil := Nat.ceil_le (n := 2 ^ 31 - 1) (a := quotient length mtu)
    have hcast : ((2 ^ 31 - 1 : ℕ) : ℚ) = 2 ^ 31 - 1 := by norm_num
    rw [hcast] at hceil
    rw [← hceil]
    exact Nat.lt_iff_le_pred (by decide)
  rw [htwo, hin, hint]
  unfold CountsRight
  rw [or_iff_right hlong]
  exact and_rotate.symm

/-- **When the other side gets the PDU back.** -/
theorem roundTrips_iff (hmtu : 2 ≤ mtu) (data : List Byte) (messageType : SigPduType) :
    RoundTrips data messageType mtu ↔ CountsRight data.length mtu := by
  by_cases hone : data.length ≤ mtu - 1
  · refine iff_of_true ⟨_, if_pos hone, List.cons_ne_nil _ _, fun s => ?_⟩ (.inl hone)
    rw [outputs, reassembleData_complete]
    rfl
  · rw [countsRight_iff hmtu hone]
    exact ⟨count_of_roundTrips hone, fun h => roundTrips_of_count hmtu hone h.1 h.2.1 h.2.2⟩

/-- Up to `2 ^ 24` octets the numbers are exact, and the quotient does not cross the next whole
one. -/
theorem countsRight_of_le (hmtu : 2 ≤ mtu) (h : length ≤ 2 ^ 24) : CountsRight length mtu := by
  unfold CountsRight quotient
  refine or_iff_not_imp_left.mpr fun hlong => ?_
  generalize hm : mtu - 1 = m at hlong
  have hpos : 0 < m := by omega
  have hlt : m < length := Nat.lt_of_not_le hlong
  have hmcast : (0 : ℚ) < m := by exact_mod_cast hpos
  have hlcast : (m : ℚ) + 1 ≤ length := by exact_mod_cast hlt
  have hexact : Rounding.nearest 24 length = length :=
    Rounding.nearest_natCast h (by decide) (hpos.trans hlt)
  have hexact' : Rounding.nearest 24 m = m :=
    Rounding.nearest_natCast (hlt.le.trans h) (by decide) hpos
  have hx : (0 : ℚ) < length / m := div_pos (by linarith) hmcast
  rw [hexact, hexact']
  have hone : 1 < Rounding.nearest 24 (length / m : ℚ) := by
    have hsmall : (m : ℚ) < 2 ^ 24 := by exact_mod_cast hlt.trans_le h
    refine Rounding.one_lt_nearest (by decide) ((lt_div_iff₀ hmcast).mpr ?_)
    have hplace : ((2 : ℚ) ^ 24)⁻¹ * m < 1 := by
      rw [inv_mul_lt_iff₀ (by norm_num)]
      linarith
    linarith
  -- the whole number above the quotient is exact too, so rounding does not pass it
  obtain ⟨k, hk, hfit, hle⟩ : ∃ k : ℕ, k ≤ length / m + 1 ∧ k ≤ 2 ^ 24 ∧ (length / m : ℚ) ≤ k := by
    obtain rfl | hm2 := Nat.eq_or_lt_of_le hpos
    · refine ⟨length, ?_, h, ?_⟩
      · rw [Nat.div_one]
        exact Nat.le_succ length
      · rw [Nat.cast_one, div_one]
    · have hhalf : length / m ≤ length / 2 := Nat.div_le_div_left hm2 (by decide)
      refine ⟨length / m + 1, le_rfl, by omega, (div_le_iff₀ hmcast).mpr ?_⟩
      have hnext := (Nat.lt_mul_div_succ length hpos).le
      rw [Nat.mul_comm] at hnext
      exact_mod_cast hnext
  have hnear := Rounding.nearest_le_natCast (p := 24) hfit (by decide) hx hle
  have hkcast : (k : ℚ) ≤ (length / m : ℕ) + 1 := by exact_mod_cast hk
  have hfitcast : (k : ℚ) ≤ 2 ^ 24 := by exact_mod_cast hfit
  refine ⟨hone, hnear.trans hkcast, (hnear.trans hfitcast).trans ?_⟩
  norm_num

/-- **The proxy protocol.**  A PDU comes back exactly where its segments are counted right, which
they are up to `2 ^ 24` octets; and what comes out of any packets is whole. -/
theorem proxyProtocol_iff (data : List Byte) (messageType : SigPduType) {mtu : ℕ} (hmtu : 2 ≤ mtu)
    (packets : List (List Byte)) (last : List Byte) :
    (RoundTrips data messageType mtu ↔ CountsRight data.length mtu) ∧
      (data.length ≤ 2 ^ 24 → CountsRight data.length mtu) ∧
      ∀ m, (reassembleData (packets.foldl feed .initial) last).1 = some m → Whole packets last m :=
  ⟨roundTrips_iff hmtu data messageType, countsRight_of_le hmtu,
    sequence_reassembleData packets last⟩

/-- Three octets, two at a time. -/
theorem proxyProtocol_iff_three : RoundTrips [1, 2, 3] .networkPdu 3 :=
  have h := proxyProtocol_iff [1, 2, 3] .networkPdu (show 2 ≤ 3 by decide) [] []
  h.1.mpr (h.2.1 (by decide))

/-- Of `2 ^ 25 + 6` octets one at a time, the last segment would begin behind the data. -/
theorem proxyProtocol_refuted : ¬ ∀ (data : List Byte) (messageType : SigPduType) (mtu : ℕ),
    1 ≤ data.length → 2 ≤ mtu → RoundTrips data messageType mtu := by
  intro h
  have hlen : (List.replicate (2 ^ 25 + 6) (0 : Byte)).length = 2 ^ 25 + 6 := List.length_replicate
  have hround := h (List.replicate (2 ^ 25 + 6) 0) .networkPdu 2 (by rw [hlen]; norm_num) le_rfl
  rw [roundTrips_iff le_rfl, hlen] at hround
  -- from `2 ^ 25` on a last place is 4: the length is halfway and goes to the even one
  have hup : Rounding.nearest 24 ((2 ^ 25 + 6 : ℕ) : ℚ) = 2 ^ 25 + 8 := by
    have hulp : Rounding.ulp 24 ((2 ^ 25 + 6 : ℕ) : ℚ) = 4 := by
      rw [Rounding.ulp_eq (e := 25) (by norm_num) (by norm_num)]
      norm_num
    have hfloor : ⌊((2 ^ 25 + 6 : ℕ) : ℚ) / 4⌋ = 2 ^ 23 + 1 := by
      rw [Int.floor_eq_iff]
      norm_num
    rw [Rounding.nearest, hulp, Rounding.halfEven, hfloor]
    norm_num
  have hsame : Rounding.nearest 24 ((2 ^ 25 + 8 : ℚ) / 1) = 2 ^ 25 + 8 := by
    have hulp : Rounding.ulp 24 ((2 ^ 25 + 8 : ℚ) / 1) = 4 := by
      rw [Rounding.ulp_eq (e := 25) (by norm_num) (by norm_num)]
      norm_num
    have hfloor : ⌊(2 ^ 25 + 8 : ℚ) / 1 / 4⌋ = 2 ^ 23 + 2 := by
      rw [Int.floor_eq_iff]
      norm_num
    rw [Rounding.nearest, hulp, Rounding.halfEven, hfloor]
    norm_num
  have hone : Rounding.nearest 24 ((2 - 1 : ℕ) : ℚ) = 1 :=
    (Rounding.nearest_natCast (p := 24) (m := 1) (by decide) (by decide) Nat.one_pos).trans
      Nat.cast_one
  rcases hround with hfits | ⟨-, hle, -⟩
  · exact absurd hfits (by norm_num)
  · rw [quotient, hup, hone, hsame, Nat.div_one] at hle
    exact absurd hle (by norm_num)

end PirMesh.ProxyProtocol
