import Mathlib.Data.BitVec
import PirMesh.Library.Reassembly
import PirMesh.Library.Run

/-! # Gateway — Packets cut and put together (`mesh_common.c`)

A message that is too long for the queue to the host goes out in labelled packets
(`gateway_sar_pkt_segment`), and the packets that come in are put together in one
buffer (`gateway_sar_pkt_reassemble`).  The buffer is memory from offset zero on; what
a call writes is an outcome of its own, since nothing keeps it inside the buffer.

A continuation is copied before the room for it is checked, and no packet is checked
for a length of at least one; `PacketOk` is exactly when a call stays inside the
buffer (`inside_iff`).  A message that is cut by the segmentation comes out whole, from
any state before it, iff it is shorter than the buffer, by two bytes when it is a
single packet (`yields_iff`). -/

namespace PirMesh.Gateway

open Reassembly

abbrev Byte := BitVec 8

/-- `PROXY_SAR_ENUM` -/
def sarComplete : Byte := 0

def sarStart : Byte := 1

def sarContinus : Byte := 2

def sarEnd : Byte := 3

/-- `HCI_GATEWAY_CMD_SAR_MSG` -/
def hciGatewayCmdSarMsg : Byte := 0x92

/-- `MAX_SEG_NUM_CNT`: `ACCESS_WITH_MIC_LEN_MAX`, or two bytes for each node and a head. -/
def maxSegNumCnt (nodeMax : ℕ) : ℕ := max 384 (nodeMax * 2 + 0x10)

/-- What a call returns. -/
inductive Ret
  | rightPacketRet
  | packetWaitComplete
  | errPacketLen
  | errTypeSar
  deriving DecidableEq, Repr

/-- `gateway_seg_buf`, with the memory behind it, and `gateway_seg_buf_len`. -/
structure SegBuf where
  mem : ℕ → Byte
  len : BitVec 16

/-- A packet: the memory at `buf`, and `len`, an `int`. -/
structure Packet where
  buf : ℕ → Byte
  len : BitVec 32

/-! ### Reassembly -/

/-- `len-1` as a `size_t`. -/
def Packet.size (p : Packet) : ℕ := (p.len - 1).toNat

/-- The outcome of a call: the region it writes is given by its offset and its size. -/
structure Outcome where
  state : SegBuf
  ret : Ret
  written : Option (ℕ × ℕ)

/-- `memcpy(gateway_seg_buf+off,buf+1,len-1)` -/
def SegBuf.memcpy (s : SegBuf) (off : ℕ) (p : Packet) : ℕ → Byte :=
  copy s.mem off (read p.buf 1 p.size)

def gatewaySarPktReassemble (nodeMax : ℕ) (s : SegBuf) (p : Packet) : Outcome :=
  let type := p.buf 0
  let inc := (p.len - 1).setWidth 16
  if p.len.toInt ≥ maxSegNumCnt nodeMax then
    ⟨{ s with len := 0 }, .errPacketLen, none⟩
  else if type = sarComplete then
    ⟨⟨s.memcpy 0 p, inc⟩, .rightPacketRet, some (0, p.size)⟩
  else if type = sarStart then
    ⟨⟨s.memcpy 0 p, inc⟩, .packetWaitComplete, some (0, p.size)⟩
  else if type = sarContinus then
    let s' : SegBuf := ⟨s.memcpy s.len.toNat p, s.len + inc⟩
    if s'.len.toNat ≥ maxSegNumCnt nodeMax then
      ⟨{ s' with len := 0 }, .errPacketLen, some (s.len.toNat, p.size)⟩
    else ⟨s', .packetWaitComplete, some (s.len.toNat, p.size)⟩
  else if type = sarEnd then
    if s.len.toNat + p.len.toInt - 1 ≥ maxSegNumCnt nodeMax then
      ⟨{ s with len := 0 }, .errPacketLen, none⟩
    else
      ⟨⟨s.memcpy s.len.toNat p, s.len + inc⟩, .rightPacketRet, some (s.len.toNat, p.size)⟩
  else ⟨s, .errTypeSar, none⟩

/-! ### Segmentation -/

/-- The loop, with the turns left: the packets of the rest, or none when the turns run out. -/
def sarLoop (segParLen : ℕ) : ℕ → List Byte → Option (List (List Byte))
  | _, [] => some []
  | 0, _ => none
  | n + 1, par =>
    if par.length > segParLen then
      (sarLoop segParLen n (par.drop segParLen)).map
        (([hciGatewayCmdSarMsg, sarContinus] ++ par.take segParLen) :: ·)
    else some [[hciGatewayCmdSarMsg, sarEnd] ++ par]

/-- The packets that are pushed: `head` is what the message has in front of `par`, and stands in the
first packet behind the two bytes of the segmentation. -/
def gatewaySarPktSegment (par : List Byte) (validFifoSize : BitVec 16) (head : List Byte) :
    Option (List (List Byte)) :=
  let headLen := head.length + 2
  let segParLen := (validFifoSize - .ofNat 16 headLen).toNat
  if validFifoSize.toNat ≥ par.length + headLen then
    some [[hciGatewayCmdSarMsg, sarComplete] ++ head ++ par]
  else
    (sarLoop (validFifoSize - 2).toNat par.length (par.drop segParLen)).map
      (([hciGatewayCmdSarMsg, sarStart] ++ head ++ par.take segParLen) :: ·)

/-- What `app_hci_cmd_from_usb_handle` hands to the reassembly: the packet without its first
byte. -/
def received (w : List Byte) : Packet := ⟨fun i => w.getD (i + 1) 0, .ofNat 32 (w.length - 1)⟩

/-- The outcomes of packets that come in one after the other. -/
def reassembleAll (nodeMax : ℕ) : SegBuf → List Packet → List Outcome
  | _, [] => []
  | s, p :: ps =>
    let o := gatewaySarPktReassemble nodeMax s p
    o :: reassembleAll nodeMax o.state ps

/-- What the host takes out of the buffer: `gateway_seg_buf_len` bytes at each
`RIGHT_PACKET_RET`. -/
def delivered (outcomes : List Outcome) : List (List Byte) :=
  (outcomes.filter (·.ret = .rightPacketRet)).map fun o => read o.state.mem 0 o.state.len.toNat

/-! ### What the reassembly writes, and what it yields -/

open Run

variable {nodeMax : ℕ} {s : SegBuf} {p : Packet}

/-! ### The writes of one call -/

/-- What is written lies in the buffer. -/
def Inside (nodeMax : ℕ) (written : Option (ℕ × ℕ)) : Prop :=
  ∀ w ∈ written, w.2 = 0 ∨ w.1 + w.2 ≤ maxSegNumCnt nodeMax

/-- A packet that is not copied, too long, of no type or without room at its end; or one with a
length of at least one for which there is room if it is a continuation. -/
def PacketOk (nodeMax : ℕ) (s : SegBuf) (p : Packet) : Prop :=
  maxSegNumCnt nodeMax ≤ p.len.toInt ∨
    (p.buf 0 ≠ sarComplete ∧ p.buf 0 ≠ sarStart ∧ p.buf 0 ≠ sarContinus ∧ p.buf 0 ≠ sarEnd) ∨
    (p.buf 0 = sarEnd ∧ maxSegNumCnt nodeMax ≤ s.len.toNat + p.len.toInt - 1) ∨
    1 ≤ p.len.toInt ∧ (p.buf 0 = sarContinus → p.len.toInt = 1 ∨
      s.len.toNat + p.len.toInt - 1 ≤ maxSegNumCnt nodeMax)

instance (s : SegBuf) (p : Packet) : Decidable (PacketOk nodeMax s p) :=
  inferInstanceAs (Decidable (_ ∨ _ ∨ _ ∨ _))

theorem maxSegNumCnt_le (h : nodeMax ≤ 1000) : maxSegNumCnt nodeMax ≤ 2016 := by
  rw [maxSegNumCnt]
  omega

/-- A length below one gives a size that no buffer has. -/
theorem size_cases (p : Packet) : 1 ≤ p.len.toInt ∧ (p.size : ℤ) = p.len.toInt - 1 ∨
    p.len.toInt ≤ 0 ∧ 2 ^ 30 < p.size := by
  have hlt := p.len.isLt
  rw [Packet.size, BitVec.toInt_eq_toNat_cond, BitVec.toNat_sub]
  have hone : (1 : BitVec 32).toNat = 1 := rfl
  rw [hone]
  split <;> omega

theorem inside_some {off n : ℕ} : Inside nodeMax (some (off, n)) ↔
    n = 0 ∨ off + n ≤ maxSegNumCnt nodeMax :=
  ⟨fun h => h _ rfl, fun h w hw => by
    obtain rfl := Option.mem_some_iff.mp hw
    exact h⟩

theorem inside_none : Inside nodeMax none := fun _ h => absurd h (Option.not_mem_none _)

/-- A continuation has been copied, whatever the check behind it says. -/
theorem written_ite (P : Prop) [Decidable P] (a b : SegBuf) (r r' : Ret) (w : Option (ℕ × ℕ)) :
    (if P then (⟨a, r, w⟩ : Outcome) else ⟨b, r', w⟩).written = w := by
  split <;> rfl

/-- **One call** stays inside the buffer iff the packet is one of those. -/
theorem inside_iff (h : nodeMax ≤ 1000) (s : SegBuf) (p : Packet) :
    Inside nodeMax (gatewaySarPktReassemble nodeMax s p).written ↔ PacketOk nodeMax s p := by
  have hmax := maxSegNumCnt_le h
  have hs := s.len.isLt
  have hsize := size_cases p
  rw [gatewaySarPktReassemble, PacketOk]
  by_cases hlen : p.len.toInt ≥ maxSegNumCnt nodeMax
  · rw [if_pos hlen]
    exact iff_of_true inside_none (.inl hlen)
  rw [if_neg hlen]
  by_cases hcomplete : p.buf 0 = sarComplete
  · have hend : sarComplete ≠ sarEnd := by decide
    have hcontinus : sarComplete ≠ sarContinus := by decide
    rw [if_pos hcomplete, inside_some]
    simp only [hcomplete, hend, hcontinus, ne_eq, not_true, false_and, false_or, false_implies,
      and_true]
    omega
  rw [if_neg hcomplete]
  by_cases hstart : p.buf 0 = sarStart
  · have hend : sarStart ≠ sarEnd := by decide
    have hcontinus : sarStart ≠ sarContinus := by decide
    rw [if_pos hstart, inside_some]
    simp only [hstart, hend, hcontinus, ne_eq, not_true, false_and, and_false, false_or,
      false_implies, and_true]
    omega
  rw [if_neg hstart]
  by_cases hcontinus : p.buf 0 = sarContinus
  · have hend : sarContinus ≠ sarEnd := by decide
    rw [if_pos hcontinus, written_ite, inside_some]
    simp only [hcontinus, hend, ne_eq, not_true, false_and, and_false, false_or, forall_const]
    omega
  rw [if_neg hcontinus]
  by_cases hend : p.buf 0 = sarEnd
  · have hne : sarEnd ≠ sarContinus := by decide
    rw [if_pos hend]
    simp only [hend, hne, ne_eq, not_true, and_false, false_or, true_and, false_implies, and_true]
    by_cases hroom : s.len.toNat + p.len.toInt - 1 ≥ maxSegNumCnt nodeMax
    · rw [if_pos hroom]
      exact iff_of_true inside_none (.inr (.inl hroom))
    · rw [if_neg hroom, inside_some]
      omega
  · rw [if_neg hend]
    exact iff_of_true inside_none (.inr (.inl ⟨hcomplete, hstart, hcontinus, hend⟩))

/-- The buffer after a packet. -/
def next (nodeMax : ℕ) (s : SegBuf) (p : Packet) : SegBuf :=
  (gatewaySarPktReassemble nodeMax s p).state

/-- **Any packets** stay inside the buffer iff each one is in order when it comes. -/
theorem all_inside_iff (h : nodeMax ≤ 1000) (ps : List Packet) (s : SegBuf) :
    (∀ o ∈ reassembleAll nodeMax s ps, Inside nodeMax o.written) ↔
      GoodRun (next nodeMax) (PacketOk nodeMax) s ps := by
  induction ps generalizing s with
  | nil => exact iff_of_true (fun o ho => nomatch ho) trivial
  | cons p ps ih =>
    rw [reassembleAll, List.forall_mem_cons, inside_iff h]
    exact and_congr_right fun _ => ih _

/-! ### Packets of the segmentation -/

/-- A packet as it is pushed. -/
def labelled (type : Byte) (q : List Byte) : List Byte := [hciGatewayCmdSarMsg, type] ++ q

section

variable (type : Byte) {q Q : List Byte}

theorem received_buf_zero (q : List Byte) : (received (labelled type q)).buf 0 = type := rfl

theorem received_len (h : q.length < 2 ^ 16) :
    (received (labelled type q)).len.toInt = q.length + 1 := by
  have hlen : (received (labelled type q)).len = .ofNat 32 (q.length + 1) := rfl
  rw [hlen, BitVec.toInt_eq_toNat_of_lt, BitVec.toNat_ofNat, Nat.mod_eq_of_lt (by omega)]
  · rfl
  · rw [BitVec.toNat_ofNat, Nat.mod_eq_of_lt (by omega)]
    omega

theorem received_size (h : q.length < 2 ^ 16) : (received (labelled type q)).size = q.length := by
  have hlen := received_len type h
  have hsize := size_cases (received (labelled type q))
  omega

theorem received_inc (h : q.length < 2 ^ 16) :
    ((received (labelled type q)).len - 1).setWidth 16 = .ofNat 16 q.length := by
  have hsize := received_size type h
  rw [Packet.size] at hsize
  apply BitVec.eq_of_toNat_eq
  rw [BitVec.toNat_setWidth, hsize, BitVec.toNat_ofNat]

theorem received_read (h : q.length < 2 ^ 16) :
    read (received (labelled type q)).buf 1 (received (labelled type q)).size = q := by
  rw [received_size _ h]
  refine List.ext_getElem (length_read _ _ _) fun i hi hi' => ?_
  rw [getElem_read]
  have hbuf : (received (labelled type q)).buf (i + 1) = q.getD i 0 := rfl
  rw [Nat.add_comm 1 i, hbuf, List.getD_eq_getElem?_getD, List.getElem?_eq_getElem hi']
  rfl

/-- The buffer has `Q` at its start. -/
structure Has (s : SegBuf) (Q : List Byte) : Prop where
  len : s.len.toNat = Q.length
  mem : read s.mem 0 Q.length = Q

/-- More bytes right behind what is there. -/
theorem Has.append {s : SegBuf} (hs : Has s Q) (hsum : Q.length + q.length < 2 ^ 16) :
    Has ⟨copy s.mem s.len.toNat q, s.len + .ofNat 16 q.length⟩ (Q ++ q) where
  len := by
    rw [BitVec.toNat_add, hs.len, BitVec.toNat_ofNat, List.length_append]
    omega
  mem := by
    show read (copy s.mem s.len.toNat q) 0 _ = _
    rw [hs.len, List.length_append, read_copy_append, hs.mem]

theorem Has.fresh (m : ℕ → Byte) (hq : q.length < 2 ^ 16) :
    Has ⟨copy m 0 q, .ofNat 16 q.length⟩ q where
  len := by
    rw [BitVec.toNat_ofNat, Nat.mod_eq_of_lt hq]
  mem := by
    have hread := read_copy m 0 q 0 q.length (by omega)
    rw [Nat.zero_add, List.drop_zero, List.take_length] at hread
    exact hread

variable (hq : q.length < 2 ^ 16)

include hq

/-- The first packet, from any buffer. -/
theorem reassemble_start (s : SegBuf) (hroom : q.length + 1 < maxSegNumCnt nodeMax) :
    Has (next nodeMax s (received (labelled sarStart q))) q := by
  have hlen := received_len sarStart hq
  have hne : sarStart ≠ sarComplete := by decide
  rw [next, gatewaySarPktReassemble, if_neg (by omega), received_buf_zero, if_neg hne, if_pos rfl,
    SegBuf.memcpy, received_read _ hq, received_inc _ hq]
  exact Has.fresh _ hq

/-- A continuation with room for it. -/
theorem reassemble_continus {s : SegBuf} (hs : Has s Q) (hQ : Q ≠ []) (h : nodeMax ≤ 1000)
    (hroom : Q.length + q.length < maxSegNumCnt nodeMax) :
    Has (next nodeMax s (received (labelled sarContinus q))) (Q ++ q) := by
  have hlen := received_len sarContinus hq
  have hmax := maxSegNumCnt_le h
  have hpos := List.length_pos_iff.mpr hQ
  have hall := hs.append (q := q) (by omega)
  have hcomplete : sarContinus ≠ sarComplete := by decide
  have hstart : sarContinus ≠ sarStart := by decide
  rw [next, gatewaySarPktReassemble, if_neg (by omega), received_buf_zero, if_neg hcomplete,
    if_neg hstart, if_pos rfl, SegBuf.memcpy, received_read _ hq, received_inc _ hq]
  have hsum := hall.len
  rw [List.length_append] at hsum
  dsimp only at hsum ⊢
  rw [if_neg (by omega)]
  exact hall

/-- The last packet: it is right iff there is room, and then it is appended. -/
theorem reassemble_end (nodeMax : ℕ) (s : SegBuf) :
    let o := gatewaySarPktReassemble nodeMax s (received (labelled sarEnd q))
    if q.length + 1 < maxSegNumCnt nodeMax ∧ s.len.toNat + q.length < maxSegNumCnt nodeMax then
      o.ret = .rightPacketRet ∧
        o.state = ⟨copy s.mem s.len.toNat q, s.len + .ofNat 16 q.length⟩
    else o.ret ≠ .rightPacketRet := by
  have hlen := received_len sarEnd hq
  have hcomplete : sarEnd ≠ sarComplete := by decide
  have hstart : sarEnd ≠ sarStart := by decide
  have hcontinus : sarEnd ≠ sarContinus := by decide
  intro o
  by_cases hlong : q.length + 1 < maxSegNumCnt nodeMax
  · have ho : o = _ := if_neg (by omega)
    rw [received_buf_zero, if_neg hcomplete, if_neg hstart, if_neg hcontinus, if_pos rfl,
      SegBuf.memcpy, received_read _ hq, received_inc _ hq] at ho
    by_cases hroom : s.len.toNat + q.length < maxSegNumCnt nodeMax
    · rw [if_neg (by omega)] at ho
      rw [if_pos ⟨hlong, hroom⟩, ho]
      exact ⟨rfl, rfl⟩
    · rw [if_pos (by omega)] at ho
      rw [if_neg fun h => hroom h.2, ho]
      exact nofun
  · have ho : o = _ := if_pos (by omega)
    rw [if_neg fun h => hlong h.1, ho]
    exact nofun

/-- The single packet. -/
theorem reassemble_complete (nodeMax : ℕ) (s : SegBuf) :
    let o := gatewaySarPktReassemble nodeMax s (received (labelled sarComplete q))
    if q.length + 1 < maxSegNumCnt nodeMax then o.ret = .rightPacketRet ∧ Has o.state q
    else o.ret ≠ .rightPacketRet := by
  have hlen := received_len sarComplete hq
  intro o
  by_cases hlong : q.length + 1 < maxSegNumCnt nodeMax
  · have ho : o = _ := if_neg (by omega)
    rw [received_buf_zero, if_pos rfl, SegBuf.memcpy, received_read _ hq, received_inc _ hq] at ho
    rw [if_pos hlong, ho]
    exact ⟨rfl, Has.fresh _ hq⟩
  · have ho : o = _ := if_pos (by omega)
    rw [if_neg hlong, ho]
    exact nofun

end

/-- Neither the first packet nor a continuation delivers anything. -/
theorem reassemble_waits (s : SegBuf) {p : Packet}
    (hp : p.buf 0 = sarStart ∨ p.buf 0 = sarContinus) :
    (gatewaySarPktReassemble nodeMax s p).ret ≠ .rightPacketRet := by
  have hcomplete : p.buf 0 ≠ sarComplete := by
    obtain h | h := hp <;> (rw [h]; decide)
  have hend : p.buf 0 ≠ sarEnd := by
    obtain h | h := hp <;> (rw [h]; decide)
  rw [gatewaySarPktReassemble, if_neg hcomplete, if_neg hend]
  split
  · exact nofun
  split
  · exact nofun
  split
  · dsimp only
    split <;> exact nofun
  · exact nofun

/-! ### A message through both -/

/-- The loop's packets: continuations and an end, of no more than its size. -/
theorem sarLoop_spec {k : ℕ} (hk : 0 < k) (n : ℕ) (par : List Byte) (hn : par.length ≤ n)
    (hpar : par ≠ []) : ∃ mids last,
      sarLoop k n par = some (mids.map (labelled sarContinus) ++ [labelled sarEnd last]) ∧
      mids.flatten ++ last = par ∧ ∀ q ∈ last :: mids, q.length ≤ k := by
  induction n generalizing par with
  | zero => exact absurd (List.length_eq_zero_iff.mp (by omega)) hpar
  | succ n ih =>
    have hloop : sarLoop k (n + 1) par = if par.length > k then
        (sarLoop k n (par.drop k)).map (([hciGatewayCmdSarMsg, sarContinus] ++ par.take k) :: ·)
      else some [[hciGatewayCmdSarMsg, sarEnd] ++ par] := by
      cases par with
      | nil => exact absurd rfl hpar
      | cons b par => rfl
    rw [hloop]
    by_cases hlong : par.length > k
    · have hdrop : (par.drop k).length = par.length - k := List.length_drop
      obtain ⟨mids, last, hmids, hsum, hle⟩ := ih (par.drop k) (by omega)
        (List.length_pos_iff.mp (by omega))
      refine ⟨par.take k :: mids, last, ?_, ?_, ?_⟩
      · rw [if_pos hlong, hmids]
        rfl
      · rw [List.flatten_cons, List.append_assoc, hsum, List.take_append_drop]
      · intro q hq
        rw [List.mem_cons, List.mem_cons] at hq
        obtain rfl | rfl | hq := hq
        · exact hle _ List.mem_cons_self
        · exact List.length_take_le _ _
        · exact hle _ (List.mem_cons_of_mem _ hq)
    · refine ⟨[], par, if_neg hlong, rfl, ?_⟩
      intro q hq
      rw [List.mem_singleton.mp hq]
      omega

/-- **The packets of a message**: a single one when it fits with the two bytes of the segmentation,
else a first one, continuations and an end, with the message in them in order. -/
theorem segment_spec (par : List Byte) {validFifoSize : BitVec 16} {head : List Byte}
    (hvalid : 2 < validFifoSize.toNat) (hhead : head.length + 2 ≤ validFifoSize.toNat) :
    if (head ++ par).length + 2 ≤ validFifoSize.toNat then
      gatewaySarPktSegment par validFifoSize head = some [labelled sarComplete (head ++ par)]
    else ∃ first mids last,
      gatewaySarPktSegment par validFifoSize head = some
        (labelled sarStart first :: (mids.map (labelled sarContinus) ++ [labelled sarEnd last])) ∧
      first ++ (mids.flatten ++ last) = head ++ par ∧ first ≠ [] ∧
      first.length + 2 ≤ validFifoSize.toNat ∧
      ∀ q ∈ last :: mids, q.length + 2 ≤ validFifoSize.toNat := by
  have hlt := validFifoSize.isLt
  have hpar : (validFifoSize - .ofNat 16 (head.length + 2)).toNat =
      validFifoSize.toNat - (head.length + 2) := by
    rw [BitVec.toNat_sub_of_le, BitVec.toNat_ofNat, Nat.mod_eq_of_lt (by omega)]
    rw [BitVec.le_def, BitVec.toNat_ofNat, Nat.mod_eq_of_lt (by omega)]
    exact hhead
  have htwo : (validFifoSize - 2).toNat = validFifoSize.toNat - 2 := by
    rw [BitVec.toNat_sub_of_le]
    · rfl
    · rw [BitVec.le_def]
      exact Nat.le_of_lt hvalid
  rw [gatewaySarPktSegment, hpar, htwo, List.length_append]
  by_cases hfit : head.length + par.length + 2 ≤ validFifoSize.toNat
  · rw [if_pos hfit, if_pos (by omega), labelled, List.append_assoc]
  · rw [if_neg hfit, if_neg (by omega)]
    have hdrop : (par.drop (validFifoSize.toNat - (head.length + 2))).length =
        par.length - (validFifoSize.toNat - (head.length + 2)) := List.length_drop
    obtain ⟨mids, last, hmids, hsum, hle⟩ := sarLoop_spec (k := validFifoSize.toNat - 2)
      (by omega) par.length (par.drop (validFifoSize.toNat - (head.length + 2))) (by omega)
      (List.length_pos_iff.mp (by omega))
    have hfirst : (head ++ par.take (validFifoSize.toNat - (head.length + 2))).length + 2 =
        validFifoSize.toNat := by
      rw [List.length_append, List.length_take]
      omega
    refine ⟨head ++ par.take (validFifoSize.toNat - (head.length + 2)), mids, last, ?_, ?_, ?_,
      hfirst.le, ?_⟩
    · rw [hmids, labelled, List.append_assoc]
      rfl
    · rw [hsum, List.append_assoc, List.take_append_drop]
    · exact List.length_pos_iff.mp (by omega)
    · intro q hq
      have hq := hle q hq
      omega

theorem delivered_cons_of_ne {o : Outcome} (h : o.ret ≠ .rightPacketRet) (os : List Outcome) :
    delivered (o :: os) = delivered os := by
  rw [delivered, delivered, List.filter_cons_of_neg (by simpa using h)]

theorem delivered_right {o : Outcome} (h : o.ret = .rightPacketRet) :
    delivered [o] = [read o.state.mem 0 o.state.len.toNat] := by
  rw [delivered, List.filter_cons_of_pos (by simpa using h)]
  rfl

theorem delivered_waits (nodeMax : ℕ) {ps : List Packet}
    (h : ∀ p ∈ ps, p.buf 0 = sarStart ∨ p.buf 0 = sarContinus) (s : SegBuf) (qs : List Packet) :
    delivered (reassembleAll nodeMax s (ps ++ qs)) =
      delivered (reassembleAll nodeMax (ps.foldl (next nodeMax) s) qs) := by
  induction ps generalizing s with
  | nil => rfl
  | cons p ps ih =>
    rw [List.cons_append, reassembleAll,
      delivered_cons_of_ne (reassemble_waits s (h p List.mem_cons_self))]
    exact ih (fun q hq => h q (List.mem_cons_of_mem _ hq)) _

/-- The buffer behind all continuations. -/
theorem has_mids (h : nodeMax ≤ 1000) (mids : List (List Byte)) {s : SegBuf} {Q : List Byte}
    (hs : Has s Q) (hQ : Q ≠ []) (hlen : ∀ q ∈ mids, q.length < 2 ^ 16)
    (hroom : (Q ++ mids.flatten).length < maxSegNumCnt nodeMax) :
    Has ((mids.map fun q => received (labelled sarContinus q)).foldl (next nodeMax) s)
      (Q ++ mids.flatten) := by
  induction mids generalizing s Q with
  | nil =>
    rw [List.flatten_nil, List.append_nil]
    exact hs
  | cons q mids ih =>
    rw [List.flatten_cons, ← List.append_assoc] at hroom ⊢
    have hpart := hroom
    rw [List.length_append, List.length_append] at hpart
    refine ih (reassemble_continus (hlen q List.mem_cons_self) hs hQ h (by omega)) ?_ ?_ hroom
    · exact List.append_ne_nil_of_left_ne_nil hQ _
    · exact fun r hr => hlen r (List.mem_cons_of_mem _ hr)

/-- What an end delivers. -/
theorem delivered_end {s : SegBuf} {last P : List Byte} (h : nodeMax ≤ 1000)
    (hlast : last.length < 2 ^ 16)
    (hP : delivered (reassembleAll nodeMax s [received (labelled sarEnd last)]) = [P]) :
    P.length < maxSegNumCnt nodeMax := by
  have hmax := maxSegNumCnt_le h
  have hend := reassemble_end hlast nodeMax s
  dsimp only at hend
  split at hend
  · rename_i hroom
    rw [reassembleAll, reassembleAll, delivered_right hend.1, hend.2] at hP
    have hlen := congrArg List.length (List.singleton_inj.mp hP)
    rw [length_read, BitVec.toNat_add, BitVec.toNat_ofNat] at hlen
    omega
  · rw [reassembleAll, delivered_cons_of_ne hend] at hP
    cases hP

theorem delivered_end_of_has {s : SegBuf} {Q last : List Byte} (h : nodeMax ≤ 1000) (hs : Has s Q)
    (hQ : Q ≠ []) (hlast : last.length < 2 ^ 16)
    (hroom : (Q ++ last).length < maxSegNumCnt nodeMax) :
    delivered (reassembleAll nodeMax s [received (labelled sarEnd last)]) = [Q ++ last] := by
  have hmax := maxSegNumCnt_le h
  have hpos := List.length_pos_iff.mpr hQ
  have hend := reassemble_end hlast nodeMax s
  have hall := hs.append (q := last) (by rw [List.length_append] at hroom; omega)
  rw [List.length_append] at hroom
  rw [hs.len] at hend hall
  dsimp only at hend
  rw [if_pos ⟨by omega, hroom⟩] at hend
  rw [reassembleAll, reassembleAll, delivered_right hend.1, hend.2, hall.len, hall.mem]

/-- **A message** comes out whole, and once, iff it is shorter than the buffer; a single packet by
two bytes. -/
theorem yields_iff (h : nodeMax ≤ 1000) (s : SegBuf) (par : List Byte) {validFifoSize : BitVec 16}
    {head : List Byte} (hvalid : 2 < validFifoSize.toNat)
    (hhead : head.length + 2 ≤ validFifoSize.toNat) : ∃ pkts,
    gatewaySarPktSegment par validFifoSize head = some pkts ∧
    (delivered (reassembleAll nodeMax s (pkts.map received)) = [head ++ par] ↔
      if (head ++ par).length + 2 ≤ validFifoSize.toNat then
        (head ++ par).length + 1 < maxSegNumCnt nodeMax
      else (head ++ par).length < maxSegNumCnt nodeMax) := by
  have hlt := validFifoSize.isLt
  have hspec := segment_spec par hvalid hhead
  split at hspec
  · rename_i hfit
    refine ⟨_, hspec, ?_⟩
    rw [if_pos hfit]
    have hcomplete := reassemble_complete (q := head ++ par) (by omega) nodeMax s
    dsimp only at hcomplete
    show delivered [_] = _ ↔ _
    split at hcomplete
    · rename_i hroom
      rw [delivered_right hcomplete.1, hcomplete.2.len, hcomplete.2.mem]
      exact iff_of_true rfl hroom
    · rename_i hroom
      rw [delivered_cons_of_ne hcomplete]
      exact iff_of_false nofun hroom
  · rename_i hfit
    obtain ⟨first, mids, last, hpkts, hsum, hne, hfirst, hle⟩ := hspec
    refine ⟨_, hpkts, ?_⟩
    rw [if_neg hfit, List.map_cons, List.map_append, List.map_map, List.map_singleton]
    have hlabels : ∀ p ∈ received (labelled sarStart first) ::
        mids.map fun q => received (labelled sarContinus q),
        p.buf 0 = sarStart ∨ p.buf 0 = sarContinus := by
      intro p hp
      obtain rfl | hp := List.mem_cons.mp hp
      · exact .inl rfl
      · obtain ⟨q, _, rfl⟩ := List.mem_map.mp hp
        exact .inr rfl
    have hwaits := delivered_waits nodeMax hlabels s [received (labelled sarEnd last)]
    have hlast := hle last List.mem_cons_self
    refine (iff_of_eq (congrArg (· = _) hwaits)).trans
      ⟨fun hP => delivered_end h (by omega) hP, fun hroom => ?_⟩
    have hlen := congrArg List.length hsum
    rw [List.length_append, List.length_append] at hlen
    have hstart : Has (next nodeMax s (received (labelled sarStart first))) first :=
      reassemble_start (by omega) s (by omega)
    have hmids := has_mids h mids hstart hne
      (fun q hq => by have hq := hle q (List.mem_cons_of_mem _ hq); omega)
      (by rw [List.length_append]; omega)
    rw [← List.append_assoc] at hsum
    rw [List.foldl_cons, ← hsum]
    refine delivered_end_of_has h hmids (List.append_ne_nil_of_left_ne_nil hne _) (by omega) ?_
    rw [hsum]
    exact hroom

/-- **The reassembly**: packets stay inside the buffer iff each one is in order when it comes, and
what the segmentation cuts comes out whole and once, from any buffer, iff it is shorter than the
buffer. -/
theorem sar_exact (h : nodeMax ≤ 1000) :
    (∀ s ps, (∀ o ∈ reassembleAll nodeMax s ps, Inside nodeMax o.written) ↔
      GoodRun (next nodeMax) (PacketOk nodeMax) s ps) ∧
    ∀ s par (validFifoSize : BitVec 16) (head : List Byte), 2 < validFifoSize.toNat →
      head.length ≤ 6 → head.length + 2 ≤ validFifoSize.toNat → ∃ pkts,
      gatewaySarPktSegment par validFifoSize head = some pkts ∧
      (delivered (reassembleAll nodeMax s (pkts.map received)) = [head ++ par] ↔
        if (head ++ par).length + 2 ≤ validFifoSize.toNat then
          (head ++ par).length + 1 < maxSegNumCnt nodeMax
        else (head ++ par).length < maxSegNumCnt nodeMax) :=
  ⟨fun s ps => all_inside_iff h ps s,
    fun s par _ _ hvalid _ hhead => yields_iff h s par hvalid hhead⟩

theorem sar_sample :
    (∀ o ∈ reassembleAll 200 ⟨fun _ => 0, 0⟩
        [⟨fun _ => sarStart, 71⟩, ⟨fun _ => sarContinus, 71⟩, ⟨fun _ => sarEnd, 30⟩],
      Inside 200 o.written) ∧
    ∃ pkts, gatewaySarPktSegment (List.replicate 100 7) 70 [0x91, 0x90] = some pkts ∧
      delivered (reassembleAll 200 ⟨fun _ => 0xff, 300⟩ (pkts.map received)) =
        [[0x91, 0x90] ++ List.replicate 100 7] := by
  refine ⟨((sar_exact (by decide)).1 _ _).mpr (by decide), ?_⟩
  have hnodes : 200 ≤ 1000 := by decide
  obtain ⟨pkts, hpkts, hyields⟩ := (sar_exact hnodes).2 ⟨fun _ => 0xff, 300⟩
    (List.replicate 100 7) 70 [0x91, 0x90] (by decide) (by decide) (by decide)
  exact ⟨pkts, hpkts, hyields.mpr (by decide)⟩

/-- Six continuations, as long as a packet from USB can be, write behind the buffer of 416 bytes. -/
theorem sar_refuted : ¬ ∀ o ∈ reassembleAll 200 ⟨fun _ => 0, 0⟩
    (List.replicate 6 ⟨fun _ => sarContinus, 71⟩), Inside 200 o.written := by
  intro h
  have hlast := h ((reassembleAll 200 ⟨fun _ => 0, 0⟩
    (List.replicate 6 ⟨fun _ => sarContinus, 71⟩))[5]) (List.getElem_mem _)
  exact absurd (inside_some.mp hlast) (by decide)

end PirMesh.Gateway
