import Mathlib.Data.BitVec
import PirMesh.Library.Reassembly

/-! # Proxy — Pieces of `set_proxy_pdu_data` (`app_proxy.c`)

A payload of up to 30 bytes is pushed as one PDU, a longer one as a first piece and the
pieces of a loop.  Two lines of the longer path are amiss: the first piece is put into
the PDU but not pushed before the loop writes over it, and the last piece is marked as a
continuation.  So a payload that fits comes out right and no other does
(`setProxyPduData_exact`). -/

namespace PirMesh.ProxyPdu

open Reassembly

abbrev Byte := BitVec 8

/-- `PROXY_DATA_SAR_TYPE` -/
inductive Sar
  | completeMsg
  | firstSegMsg
  | continusSegMsg
  | lastSegMsg
  deriving DecidableEq, Repr

def maxProxyRsvLen : Byte := 30

/-- `proxy_msg_str`; `data` is the array, as memory from offset zero on. -/
structure ProxyMsg where
  transParVal : Byte
  type : BitVec 6
  sar : Sar
  data : ℕ → Byte

/-- The PDU as it was when it was pushed, and how many bytes were put into it for that. -/
structure Pushed where
  msg : ProxyMsg
  pktLen : Byte

/-- `memcpy(p_proxy->data, para+off, len)`, with the mark in front of it. -/
def ProxyMsg.put (p : ProxyMsg) (sar : Sar) (para : ℕ → Byte) (off len : Byte) : ProxyMsg :=
  { p with sar := sar, data := copy p.data 0 (read para off.toNat len.toNat) }

/-- The loop, with the turns left: none when they run out. -/
def segLoop (para : ℕ → Byte) : ℕ → Byte → Byte → ProxyMsg → Option (ProxyMsg × List Pushed)
  | 0, paraLen, _, p => if paraLen = 0 then some (p, []) else none
  | n + 1, paraLen, paraIdx, p =>
    if paraLen = 0 then some (p, [])
    else
      let pktLen := if paraLen ≥ maxProxyRsvLen then maxProxyRsvLen else paraLen
      let p :=
        if pktLen = maxProxyRsvLen then p.put .continusSegMsg para paraIdx pktLen
        -- the last packet
        else p.put .continusSegMsg para paraIdx pktLen
      (segLoop para n (paraLen - pktLen) (paraIdx + pktLen) p).map fun r =>
        (r.1, ⟨p, pktLen⟩ :: r.2)

/-- The PDU behind the call and what it has pushed. -/
def setProxyPduData (p : ProxyMsg) (msgType : Byte) (para : ℕ → Byte) (paraLen : Byte) :
    Option (ProxyMsg × List Pushed) :=
  let p := { p with type := msgType.setWidth 6 }
  if paraLen ≤ maxProxyRsvLen then
    let p := p.put .completeMsg para 0 paraLen
    some (p, [⟨p, paraLen⟩])
  else
    let paraLen := paraLen - maxProxyRsvLen
    let p := p.put .firstSegMsg para 0 maxProxyRsvLen
    segLoop para paraLen.toNat paraLen maxProxyRsvLen p

/-! ### What should be pushed -/

/-- The bytes of a PDU without its header. -/
def Pushed.piece (u : Pushed) : List Byte := read u.msg.data 0 u.pktLen.toNat

/-- A payload that fits is marked complete; else the first piece, the last and those between are
marked so. -/
def Marked (paraLen : Byte) (us : List Pushed) : Prop :=
  if paraLen ≤ maxProxyRsvLen then us.map (·.msg.sar) = [.completeMsg]
  else ∃ n, us.map (·.msg.sar) =
    .firstSegMsg :: (List.replicate n .continusSegMsg ++ [.lastSegMsg])

/-! ### What is pushed -/

/-- A piece holds what was put into it. -/
theorem piece_put (p : ProxyMsg) (sar : Sar) (para : ℕ → Byte) (off len : Byte) :
    Pushed.piece ⟨p.put sar para off len, len⟩ = read para off.toNat len.toNat := by
  have hread := read_copy p.data 0 (read para off.toNat len.toNat) 0 len.toNat
    (by rw [length_read]; omega)
  rw [Nat.zero_add, List.drop_zero, List.take_of_length_le (by rw [length_read])] at hread
  exact hread

/-- The loop pushes the rest, all of it as continuations of at most 30 bytes. -/
theorem segLoop_spec (para : ℕ → Byte) (n : ℕ) (paraLen paraIdx : Byte) (p : ProxyMsg)
    (hn : paraLen.toNat ≤ n) (hidx : paraIdx.toNat + paraLen.toNat < 256) :
    ∃ q us, segLoop para n paraLen paraIdx p = some (q, us) ∧
      us.flatMap Pushed.piece = read para paraIdx.toNat paraLen.toNat ∧
      ∀ u ∈ us, u.msg.sar = .continusSegMsg ∧ u.pktLen ≤ maxProxyRsvLen := by
  induction n generalizing paraLen paraIdx p with
  | zero =>
    obtain rfl : paraLen = 0 := BitVec.eq_of_toNat_eq (Nat.le_zero.mp hn)
    exact ⟨p, [], if_pos rfl, rfl, fun u hu => nomatch hu⟩
  | succ n ih =>
    by_cases hzero : paraLen = 0
    · subst hzero
      exact ⟨p, [], if_pos rfl, rfl, fun u hu => nomatch hu⟩
    have hpos : paraLen.toNat ≠ 0 := fun h => hzero (BitVec.eq_of_toNat_eq h)
    -- the length of this piece
    obtain ⟨k, hk, hle, hcap, hne⟩ : ∃ k : Byte,
        (if paraLen ≥ maxProxyRsvLen then maxProxyRsvLen else paraLen) = k ∧
        k.toNat ≤ paraLen.toNat ∧ k ≤ maxProxyRsvLen ∧ k.toNat ≠ 0 := by
      refine ⟨_, rfl, ?_⟩
      split
      · rename_i hge
        exact ⟨BitVec.le_def.mp hge, BitVec.le_refl _, by decide⟩
      · rename_i hlt
        exact ⟨Nat.le_refl _, BitVec.le_of_lt (BitVec.not_le.mp hlt), hpos⟩
    have hrest : (paraLen - k).toNat = paraLen.toNat - k.toNat :=
      BitVec.toNat_sub_of_le (BitVec.le_def.mpr hle)
    have hnext : (paraIdx + k).toNat = paraIdx.toNat + k.toNat := by
      rw [BitVec.toNat_add, Nat.mod_eq_of_lt (by omega)]
    obtain ⟨q, us, hloop, hsum, hall⟩ := ih (paraLen - k) (paraIdx + k)
      (p.put .continusSegMsg para paraIdx k) (by omega) (by omega)
    refine ⟨q, ⟨p.put .continusSegMsg para paraIdx k, k⟩ :: us, ?_, ?_, ?_⟩
    · rw [segLoop, if_neg hzero, hk]
      dsimp only
      rw [ite_self, hloop]
      rfl
    · have hsplit := read_add para paraIdx.toNat k.toNat (paraLen.toNat - k.toNat)
      rw [Nat.add_sub_cancel' hle] at hsplit
      rw [List.flatMap_cons, piece_put, hsum, hrest, hnext, hsplit]
    · intro u hu
      obtain rfl | hu := List.mem_cons.mp hu
      · exact ⟨rfl, hcap⟩
      · exact hall u hu

/-- **What the call pushes**: a payload that fits whole, of a longer one all but the first 30
bytes, in continuations. -/
theorem setProxyPduData_spec (p : ProxyMsg) (msgType : Byte) (para : ℕ → Byte) (paraLen : Byte) :
    ∃ q us, setProxyPduData p msgType para paraLen = some (q, us) ∧
      if paraLen ≤ maxProxyRsvLen then
        us.map (·.msg.sar) = [.completeMsg] ∧ us.flatMap Pushed.piece = read para 0 paraLen.toNat
      else us.flatMap Pushed.piece = read para 30 (paraLen.toNat - 30) ∧
        ∀ u ∈ us, u.msg.sar = .continusSegMsg := by
  rw [setProxyPduData]
  by_cases hfit : paraLen ≤ maxProxyRsvLen
  · refine ⟨_, _, if_pos hfit, ?_⟩
    rw [if_pos hfit]
    refine ⟨rfl, ?_⟩
    rw [List.flatMap_singleton, piece_put]
    rfl
  · have hlt := BitVec.lt_def.mp (BitVec.not_le.mp hfit)
    have hlong : 30 < paraLen.toNat := hlt
    have hrest : (paraLen - maxProxyRsvLen).toNat = paraLen.toNat - 30 :=
      BitVec.toNat_sub_of_le (BitVec.le_def.mpr hlt.le)
    have hmax : maxProxyRsvLen.toNat = 30 := rfl
    have hbyte := paraLen.isLt
    obtain ⟨q, us, hloop, hsum, hall⟩ := segLoop_spec para (paraLen - maxProxyRsvLen).toNat
      (paraLen - maxProxyRsvLen) maxProxyRsvLen
      (ProxyMsg.put { p with type := msgType.setWidth 6 } .firstSegMsg para 0 maxProxyRsvLen)
      (Nat.le_refl _) (by omega)
    refine ⟨q, us, ?_, ?_⟩
    · dsimp only
      rw [if_neg hfit]
      exact hloop
    · rw [if_neg hfit]
      rw [hrest, hmax] at hsum
      exact ⟨hsum, fun u hu => (hall u hu).1⟩

/-- **The pieces** are the payload, and marked as they should be, iff the payload fits one PDU: of
a longer one neither is true. -/
theorem setProxyPduData_exact (p : ProxyMsg) (msgType : Byte) (para : ℕ → Byte) (paraLen : Byte) :
    ∃ q us, setProxyPduData p msgType para paraLen = some (q, us) ∧
      (us.flatMap Pushed.piece = read para 0 paraLen.toNat ↔ paraLen ≤ maxProxyRsvLen) ∧
      (Marked paraLen us ↔ paraLen ≤ maxProxyRsvLen) := by
  obtain ⟨q, us, hcall, hspec⟩ := setProxyPduData_spec p msgType para paraLen
  refine ⟨q, us, hcall, ?_⟩
  rw [Marked]
  by_cases hfit : paraLen ≤ maxProxyRsvLen
  · rw [if_pos hfit] at hspec
    rw [if_pos hfit]
    exact ⟨iff_of_true hspec.2 hfit, iff_of_true hspec.1 hfit⟩
  · have hlt := BitVec.lt_def.mp (BitVec.not_le.mp hfit)
    have hlong : 30 < paraLen.toNat := hlt
    rw [if_neg hfit] at hspec
    rw [if_neg hfit]
    refine ⟨iff_of_false (fun h => ?_) hfit, iff_of_false (fun h => ?_) hfit⟩
    · have hlen := congrArg List.length (hspec.1.symm.trans h)
      rw [length_read, length_read] at hlen
      omega
    · obtain ⟨n, hmarks⟩ := h
      have hfirst : Sar.firstSegMsg ∈ us.map (·.msg.sar) := by
        rw [hmarks]
        exact List.mem_cons_self
      obtain ⟨u, hu, hsar⟩ := List.mem_map.mp hfirst
      rw [hspec.2 u hu] at hsar
      cases hsar

/-- A payload of 31 bytes is pushed as its last byte, a continuation. -/
theorem setProxyPduData_refuted : ¬ ∀ (p : ProxyMsg) (msgType : Byte) (para : ℕ → Byte)
    (paraLen : Byte), ∃ q us, setProxyPduData p msgType para paraLen = some (q, us) ∧
      us.flatMap Pushed.piece = read para 0 paraLen.toNat ∧ Marked paraLen us := by
  intro h
  obtain ⟨q, us, hcall, hsum, -⟩ := h ⟨0, 0, .completeMsg, fun _ => 0⟩ 0 (fun i => .ofNat 8 i) 31
  obtain ⟨-, rfl⟩ := Prod.mk.inj (Option.some.inj hcall)
  exact absurd hsum (by decide)

end PirMesh.ProxyPdu
