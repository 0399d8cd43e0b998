import Mathlib.Data.Prod.Lex
import PirMesh.Library.Counters
import PirMesh.Library.Run
import PirMesh.Node.Misc

/-! # Node — No pair is used twice

A node sends each PDU under the IV index in use and the sequence number it has
reached, across power cuts.  Seen from outside it is a dispenser of pairs in
lexicographic order.  While the node runs it stands at its own pair; while it is
off, at the pair the next boot will start from, an interval above the saved one.

Two moments break this.  `mesh_sno_save_check` compares with `>`, so the PDU whose
number is a full interval above the saved one goes out before the record that
covers it is written; and a store that wraps erases the saved record before it
writes the new one.  `StoreSafe` keeps power cuts out of both, and `sent_nodup` is the
result for all runs that it allows. -/

namespace PirMesh

open Nor Nor.Prog CommitLog Run Dispenser

/-! ### Runs -/

structure MiscNode where
  flash : Flash
  /-- `none` while the power is off. -/
  ram : Option MiscRam
  /-- Not in the code: the pairs of the PDUs sent so far. -/
  sent : List (BitVec 32 × BitVec 32)

inductive MiscOp
  | send
  | ivUpdate (iv : MeshIvIdxSt) (sno : BitVec 32)
  | boot (factoryTest : Bool)
  | powerOff

/-- An operation; with `cut := some n` power fails after `n` of its flash operations. -/
structure MiscEvent where
  op : MiscOp
  cut : Option Nat

namespace MiscRam

/-- The pair of the next PDU. -/
def pair (r : MiscRam) : BitVec 32 × BitVec 32 := (r.ivIdxSt.tx, r.meshAdvTxCmdSno)

/-- The library has sent a PDU. -/
def afterSend (r : MiscRam) : MiscRam := { r with meshAdvTxCmdSno := r.meshAdvTxCmdSno + 1 }

def withIv (r : MiscRam) (iv : MeshIvIdxSt) (sno : BitVec 32) : MiscRam :=
  { r with ivIdxSt := iv, meshAdvTxCmdSno := sno }

end MiscRam

/-- What the library does to the index: the one in use only grows, and the sequence number
starts over only when it does.  Before the first PDU provisioning sets both. -/
def IvMoves (sent : List (BitVec 32 × BitVec 32)) (r : MiscRam) (iv : MeshIvIdxSt)
    (sno : BitVec 32) :
    Prop :=
  IvOk iv ∧ (sent = [] ∨ iv.tx = r.ivIdxSt.tx ∧ sno = r.meshAdvTxCmdSno ∨ r.ivIdxSt.tx < iv.tx)

/-- A program of the node, cut or not. -/
def powered (p : Prog MiscRam) (f : Flash) (sent : List (BitVec 32 × BitVec 32)) :
    Option Nat → MiscNode
  | none => ⟨(p.run f).2, some (p.run f).1, sent⟩
  | some n => ⟨p.cutAfter n f, none, sent⟩

inductive MiscStep : MiscNode → MiscEvent → MiscNode → Prop
  | send {f : Flash} {r : MiscRam} {sent : List (BitVec 32 × BitVec 32)} (cut : Option Nat) :
      MiscStep ⟨f, some r, sent⟩ ⟨.send, cut⟩
        (powered (meshSnoSaveCheck r.afterSend) f (sent ++ [r.pair]) cut)
  | ivUpdate {f : Flash} {r : MiscRam} {sent : List (BitVec 32 × BitVec 32)} {iv : MeshIvIdxSt}
      {sno : BitVec 32} (cut : Option Nat) : IvMoves sent r iv sno →
      MiscStep ⟨f, some r, sent⟩ ⟨.ivUpdate iv sno, cut⟩
        (powered (meshMiscStore (r.withIv iv sno)) f sent cut)
  | boot {f : Flash} {sent : List (BitVec 32 × BitVec 32)} (factoryTest : Bool) (cut : Option Nat) :
      MiscStep ⟨f, none, sent⟩ ⟨.boot factoryTest, cut⟩
        (powered (miscBoot factoryTest >>= meshMiscStore) f sent cut)
  | powerOff {f : Flash} {r : MiscRam} {sent : List (BitVec 32 × BitVec 32)} (cut : Option Nat) :
      MiscStep ⟨f, some r, sent⟩ ⟨.powerOff, cut⟩ ⟨f, none, sent⟩

/-- A node starts off, with an erased misc sector, and has sent nothing. -/
def miscSys : Sys MiscNode MiscEvent where
  init s := (∀ a, flashAdrMisc ≤ a → a < flashAdrMisc + flashSectorSize → s.flash a = blank) ∧
    s.ram = none ∧ s.sent = []
  step := MiscStep

/-! ### The condition -/

/-- The variables `mesh_misc_store` is called with, when the operation calls it. -/
def dueStore (s : MiscNode) : MiscOp → Option MiscRam
  | .send => s.ram.bind fun r =>
      if r.afterSend.meshAdvTxCmdSno > r.afterSend.meshAdvTxCmdSnoLast + meshCmdSnoSaveDelta then
        some r.afterSend
      else none
  | .ivUpdate iv sno => s.ram.map (·.withIv iv sno)
  | .boot factoryTest => some ((miscBoot factoryTest).run s.flash).1
  | .powerOff => none

/-- The store of `r` is not cut where the pairs in use would be lost. -/
structure StoreSafe (f : Flash) (r : MiscRam) (e : MiscEvent) : Prop where
  /-- The numbers up to the next store fit 32 bits. -/
  fits : r.meshAdvTxCmdSno.toNat + 0x81 < 2 ^ 32
  /-- A record with this index is not taken for one without. -/
  index : r.ivIdxSt.tx ≠ 0xFFFFFFFF
  /-- No cut between the erase and the commit of a store that wraps. -/
  wrap : ∀ n, e.cut = some n → Wraps miscCfg (r.par f) → n = 0 ∨ commitOps miscCfg (r.par f) ≤ n
  /-- No cut between a PDU and the commit of the store that it makes due. -/
  send : ∀ n, e.cut = some n → e.op = .send → commitOps miscCfg (r.par f) ≤ n

/-- Every store the event makes is safe. -/
def StoresSafe (s : MiscNode) (e : MiscEvent) : Prop :=
  ∀ r, dueStore s e.op = some r → StoreSafe s.flash r e

/-! ### The invariant -/

/-- Pairs in lexicographic order. -/
def stamp (p : BitVec 32 × BitVec 32) : ℕ ×ₗ ℕ := toLex (p.1.toNat, p.2.toNat)

/-- The pairs sent lie below number `n` of index `tx`. -/
def Below (sent : List (BitVec 32 × BitVec 32)) (tx : BitVec 32) (n : ℕ) : Prop :=
  Draw (toLex (tx.toNat, n)) (sent.map stamp)

/-- A boot from the record `m` starts above the pairs sent. -/
structure Covers (m : MiscSave) (sent : List (BitVec 32 × BitVec 32)) : Prop where
  fits : m.sno.toNat + 0x81 < 2 ^ 32
  index : m.ivIndex ≠ 0xFFFFFFFF
  below : Below sent m.ivIndex (m.sno.toNat + 0x80)

/-- The sector covers what was sent. -/
def Covered (l : Log (List Byte)) (sent : List (BitVec 32 × BitVec 32)) : Prop :=
  sent = [] ∨ ∃ m, l.current = some (miscSaveLayout.put m) ∧ Covers m sent

/-- A node that runs. -/
structure Running (f : Flash) (r : MiscRam) (sent : List (BitVec 32 × BitVec 32)) : Prop where
  log : ∃ l, LogState miscCfg (r.par f) l ∧ ∃ m, l.current = some (miscSaveLayout.put m) ∧
    m.sno = r.meshAdvTxCmdSnoLast ∧ m.ivIndex = r.ivIdxSt.tx
  iv : IvOk r.ivIdxSt
  need : r.nodeNeedStoreMisc = true
  fits : r.meshAdvTxCmdSnoLast.toNat + 0x81 < 2 ^ 32
  index : r.ivIdxSt.tx ≠ 0xFFFFFFFF
  lag : r.meshAdvTxCmdSno.toNat ≤ r.meshAdvTxCmdSnoLast.toNat + 0x80
  below : Below sent r.ivIdxSt.tx r.meshAdvTxCmdSno.toNat

def MiscInv (s : MiscNode) : Prop :=
  match s.ram with
  | some r => Running s.flash r s.sent
  | none => ∃ l, Holds miscCfg s.flash l ∧ Covered l s.sent

variable {f : Flash} {r : MiscRam} {l : Log (List Byte)} {sent : List (BitVec 32 × BitVec 32)}
  {e : MiscEvent}

theorem Below.mono {tx : BitVec 32} {m n : ℕ} (h : Below sent tx m) (hmn : m ≤ n) :
    Below sent tx n :=
  h.rise (Prod.Lex.toLex_le_toLex.mpr (.inr ⟨rfl, hmn⟩))

/-- A PDU goes out. -/
theorem Below.send {n : ℕ} (h : Below sent r.ivIdxSt.tx r.meshAdvTxCmdSno.toNat)
    (hn : r.meshAdvTxCmdSno.toNat < n) : Below (sent ++ [r.pair]) r.ivIdxSt.tx n := by
  unfold Below
  rw [List.map_append]
  exact h.emit (Prod.Lex.toLex_lt_toLex.mpr (.inr ⟨rfl, hn⟩))

theorem Below.nodup {tx : BitVec 32} {n : ℕ} (h : Below sent tx n) : sent.Nodup :=
  (Draw.nodup h).of_map

/-- While the node runs, its sector covers what was sent. -/
theorem Running.covered (h : Running f r sent) :
    ∃ l, LogState miscCfg (r.par f) l ∧ Covered l sent := by
  obtain ⟨l, hl, m, hm, hsno, hiv⟩ := h.log
  refine ⟨l, hl, .inr ⟨m, hm, hsno ▸ h.fits, hiv ▸ h.index, ?_⟩⟩
  rw [hsno, hiv]
  exact h.below.mono h.lag

/-! ### Steps -/

/-- **A safe store keeps the invariant**, whether it is cut or not.  The record before it need
not cover what was sent once the store is past its commit. -/
theorem store_inv (hl : LogState miscCfg (r.par f) l) (hneed : r.nodeNeedStoreMisc = true)
    (hiv : IvOk r.ivIdxSt) (hb : Below sent r.ivIdxSt.tx r.meshAdvTxCmdSno.toNat)
    (hs : StoreSafe f r e)
    (hcov : ∀ n, e.cut = some n → commitOps miscCfg (r.par f) ≤ n ∨ Covered l sent) :
    MiscInv (powered (meshMiscStore r) f sent e.cut) := by
  have hnew : ∀ {l'}, Log.current l' = some (miscSaveLayout.put (miscSave r)) →
      Covered l' sent := by
    refine fun hcur => .inr ⟨_, hcur, ?_, ?_, ?_⟩
    · rw [miscSave_sno]
      exact hs.fits
    · rw [miscSave_ivIndex hiv]
      exact hs.index
    · rw [miscSave_sno, miscSave_ivIndex hiv]
      exact hb.mono (Nat.le_add_right _ _)
  cases hcut : e.cut with
  | none =>
    obtain ⟨g, adr, l', hrun, hl', hcur⟩ := meshMiscStore_run hl hneed
    rw [powered, hrun]
    exact ⟨⟨l', hl', _, hcur, miscSave_sno r, miscSave_ivIndex hiv⟩, hiv, hneed, hs.fits, hs.index,
      Nat.le_add_right _ _, hb⟩
  | some n =>
    show ∃ l', Holds miscCfg ((meshMiscStore r).cutAfter n f) l' ∧ Covered l' sent
    rw [cutAfter_meshMiscStore hneed]
    rcases hcov n hcut with hn | hold
    · obtain ⟨l', hl', hcur⟩ := cut_committed hl misc_not_mem_saveMap (miscRecord (miscSave r)) hn
      exact ⟨l', hl', hnew hcur⟩
    · obtain ⟨l', hl', hcur⟩ := cut_old_or_new hl misc_not_mem_saveMap (miscRecord (miscSave r))
        (hs.wrap n hcut)
      refine ⟨l', hl', hcur.elim (fun hcur => ?_) hnew⟩
      exact hold.imp_right fun ⟨m, hm, hc⟩ => ⟨m, hcur.trans hm, hc⟩

theorem send_inv (h : Running f r sent) (cut : Option Nat)
    (hs : StoresSafe ⟨f, some r, sent⟩ ⟨.send, cut⟩) :
    MiscInv (powered (meshSnoSaveCheck r.afterSend) f (sent ++ [r.pair]) cut) := by
  have hfits := h.fits
  have hlag := h.lag
  have hsum : (r.afterSend.meshAdvTxCmdSnoLast + meshCmdSnoSaveDelta).toNat =
      r.meshAdvTxCmdSnoLast.toNat + 0x80 := by
    show (r.meshAdvTxCmdSnoLast + meshCmdSnoSaveDelta).toNat = _
    rw [BitVec.toNat_add, show meshCmdSnoSaveDelta.toNat = 0x80 from rfl]
    omega
  have hnext : r.afterSend.meshAdvTxCmdSno.toNat = r.meshAdvTxCmdSno.toNat + 1 := by
    show (r.meshAdvTxCmdSno + 1).toNat = _
    rw [BitVec.toNat_add, show (1 : BitVec 32).toNat = 1 from rfl]
    omega
  have hb : Below (sent ++ [r.pair]) r.afterSend.ivIdxSt.tx r.afterSend.meshAdvTxCmdSno.toNat :=
    h.below.send (by omega)
  obtain ⟨l, hl, m, hm, hsno, hiv⟩ := h.log
  by_cases hdue :
      r.afterSend.meshAdvTxCmdSno > r.afterSend.meshAdvTxCmdSnoLast + meshCmdSnoSaveDelta
  · have hsafe := hs r.afterSend (if_pos hdue)
    rw [meshSnoSaveCheck, if_pos hdue]
    exact store_inv (e := ⟨.send, cut⟩) hl h.need h.iv hb hsafe fun n hn =>
      .inl (hsafe.send n hn rfl)
  · have hle : r.afterSend.meshAdvTxCmdSno.toNat ≤ r.meshAdvTxCmdSnoLast.toNat + 0x80 := by
      rw [gt_iff_lt, BitVec.lt_def] at hdue
      omega
    have hrun : Running f r.afterSend (sent ++ [r.pair]) :=
      ⟨⟨l, hl, m, hm, hsno, hiv⟩, h.iv, h.need, h.fits, h.index, hle, hb⟩
    rw [meshSnoSaveCheck, if_neg hdue]
    cases cut with
    | none => exact hrun
    | some n =>
      obtain ⟨l, hl, hc⟩ := hrun.covered
      exact ⟨l, hl.holds, hc⟩

theorem ivUpdate_inv (h : Running f r sent) {iv : MeshIvIdxSt} {sno : BitVec 32} (cut : Option Nat)
    (hm : IvMoves sent r iv sno) (hs : StoresSafe ⟨f, some r, sent⟩ ⟨.ivUpdate iv sno, cut⟩) :
    MiscInv (powered (meshMiscStore (r.withIv iv sno)) f sent cut) := by
  obtain ⟨l, hl, hc⟩ := h.covered
  refine store_inv (e := ⟨.ivUpdate iv sno, cut⟩) hl h.need hm.1 ?_ (hs _ rfl) fun _ _ => .inr hc
  rcases hm.2 with rfl | ⟨htx, hsno⟩ | hlt
  · exact .start _
  · rw [show (r.withIv iv sno).ivIdxSt.tx = r.ivIdxSt.tx from htx,
      show (r.withIv iv sno).meshAdvTxCmdSno = r.meshAdvTxCmdSno from hsno]
    exact h.below
  · exact h.below.rise (Prod.Lex.toLex_le_toLex.mpr (.inl (BitVec.lt_def.mp hlt)))

theorem boot_inv (hl : Holds miscCfg f l) (hc : Covered l sent) (factoryTest : Bool)
    (cut : Option Nat) (hs : StoresSafe ⟨f, none, sent⟩ ⟨.boot factoryTest, cut⟩) :
    MiscInv (powered (miscBoot factoryTest >>= meshMiscStore) f sent cut) := by
  have hrun := miscBoot_run hl factoryTest
  have hsafe := hs _ rfl
  simp only [hrun] at hsafe
  have hpow : ∀ r, Reads f (miscBoot factoryTest) r →
      powered (miscBoot factoryTest >>= meshMiscStore) f sent cut =
        powered (meshMiscStore r) f sent cut := fun r hr => by
    cases cut with
    | none => rw [powered, powered, run_bind_of hr.run]
    | some n => rw [powered, powered, hr.cutAfter_bind]
  rw [hpow _ (miscBoot_reads hl factoryTest)]
  refine store_inv (e := ⟨.boot factoryTest, cut⟩) ⟨hl, bootedRam_addr ..⟩ (bootedRam_need ..)
    (bootedRam_ivOk ..) ?_ hsafe fun _ _ => .inr hc
  rcases hc with rfl | ⟨m, hm, hcov⟩
  · exact .start _
  · -- the boot stands where the saved record said it would
    have hfits := hcov.fits
    rw [hm, Option.map_some, miscSaveLayout.get_put, bootedRam_sno, bootedRam_tx _ _ hcov.index,
      BitVec.toNat_add, show meshCmdSnoSaveDelta.toNat = 0x80 from rfl, Nat.mod_eq_of_lt (by omega)]
    exact hcov.below

theorem misc_reach_inv {s : MiscNode} (h : (miscSys.restrict StoresSafe).Reach s) : MiscInv s := by
  refine h.inv (fun s hs => ?_) ?_
  · obtain ⟨f, ram, sent⟩ := s
    obtain ⟨hb, rfl, rfl⟩ := hs
    exact ⟨[], holds_nil hb, .inl rfl⟩
  · rintro s e t hinv ⟨hsafe, hstep⟩
    cases hstep with
    | send cut => exact send_inv hinv cut hsafe
    | ivUpdate cut hm => exact ivUpdate_inv hinv cut hm hsafe
    | boot factoryTest cut =>
      obtain ⟨l, hl, hc⟩ := hinv
      exact boot_inv hl hc factoryTest cut hsafe
    | powerOff cut =>
      obtain ⟨l, hl, hc⟩ := hinv.covered
      exact ⟨l, hl.holds, hc⟩

/-- **No pair is used twice** in a run whose stores are all safe. -/
theorem sent_nodup {s : MiscNode} (h : (miscSys.restrict StoresSafe).Reach s) : s.sent.Nodup := by
  have hinv := misc_reach_inv h
  obtain ⟨f, ram, sent⟩ := s
  cases ram with
  | some r => exact hinv.below.nodup
  | none =>
    obtain ⟨l, -, hc⟩ := hinv
    rcases hc with rfl | ⟨m, -, hcov⟩
    · exact List.nodup_nil
    · exact hcov.below.nodup

/-! ### A pair that is used twice -/

def miscErased : MiscNode := ⟨fun _ => blank, none, []⟩

def bootNode (s : MiscNode) : MiscNode :=
  powered (miscBoot false >>= meshMiscStore) s.flash s.sent none

def sendNode (cut : Option Nat) (s : MiscNode) : MiscNode :=
  match s.ram with
  | some r => powered (meshSnoSaveCheck r.afterSend) s.flash (s.sent ++ [r.pair]) cut
  | none => s

def sends (n : Nat) (s : MiscNode) : MiscNode :=
  (List.replicate n none).foldl (fun s c => sendNode c s) s

theorem step_send {s : MiscNode} (cut : Option Nat) (h : s.ram.isSome) :
    MiscStep s ⟨.send, cut⟩ (sendNode cut s) := by
  obtain ⟨f, ram, sent⟩ := s
  obtain ⟨r, rfl⟩ := Option.isSome_iff_exists.mp h
  exact .send cut

theorem step_boot {s : MiscNode} (h : s.ram = none) :
    MiscStep s ⟨.boot false, none⟩ (bootNode s) := by
  obtain ⟨f, ram, sent⟩ := s
  cases h
  exact .boot false none

theorem reach_send {s : MiscNode} (cut : Option Nat) (h : miscSys.Reach s) :
    miscSys.Reach (sendNode cut s) := by
  obtain ⟨f, ram, sent⟩ := s
  cases ram with
  | some r => exact h.step (.send cut)
  | none => exact h

theorem reach_sends {s : MiscNode} (n : Nat) (h : miscSys.Reach s) : miscSys.Reach (sends n s) := by
  induction n generalizing s with
  | zero => exact h
  | succ n ih => exact ih (reach_send none h)

theorem init_miscErased : miscSys.init miscErased := ⟨fun _ _ _ => rfl, rfl, rfl⟩

/-- The node with 128 PDUs behind its first boot: the next one is the first that is not covered. -/
def atInterval : MiscNode := sends 128 (bootNode miscErased)

/-- Power fails behind that PDU, before its store; the node boots and sends again. -/
def reusedNode : MiscNode := sendNode none (bootNode (sendNode (some 0) atInterval))

theorem pair_reused : miscSys.Reach reusedNode ∧ ¬ reusedNode.sent.Nodup := by
  have h1 : miscSys.Reach atInterval :=
    reach_sends 128 (.step (.init init_miscErased) (step_boot rfl))
  have h2 : miscSys.Reach (bootNode (sendNode (some 0) atInterval)) :=
    (reach_send (some 0) h1).step (step_boot (by decide +kernel))
  refine ⟨reach_send none h2, fun hnodup => ?_⟩
  have hlast : reusedNode.sent.drop 128 =
    [(0x12345678, 0x81), (0x12345678, 0x81)] := by decide +kernel
  have hdrop := hnodup.sublist (List.drop_sublist 128 _)
  rw [hlast] at hdrop
  exact absurd hdrop (by decide)

theorem storesSafe_uncut {s : MiscNode} {op : MiscOp} (h : ∀ r ∈ dueStore s op,
    r.meshAdvTxCmdSno.toNat + 0x81 < 2 ^ 32 ∧ r.ivIdxSt.tx ≠ 0xFFFFFFFF) :
    StoresSafe s ⟨op, none⟩ := fun r hr =>
  ⟨(h r hr).1, (h r hr).2, fun _ hn => absurd hn (by simp), fun _ hn => absurd hn (by simp)⟩

/-- A PDU that makes no store due is cut; the node boots and sends again. -/
def skippedNode : MiscNode := sendNode none (bootNode (sendNode (some 0) (bootNode miscErased)))

theorem sent_nodup_skipped : (miscSys.restrict StoresSafe).Reach skippedNode ∧
    skippedNode.sent.Nodup := by
  have h0 : (miscSys.restrict StoresSafe).Reach miscErased := .init init_miscErased
  have h1 := h0.step ⟨storesSafe_uncut (by decide +kernel), step_boot rfl⟩
  have h2 := h1.step ⟨fun r hr => absurd hr (by
    rw [show dueStore (bootNode miscErased) .send = none by decide +kernel]
    simp), step_send (some 0) (by decide +kernel)⟩
  have h3 := h2.step ⟨storesSafe_uncut (by decide +kernel), step_boot (by decide +kernel)⟩
  have h4 := h3.step ⟨storesSafe_uncut (by decide +kernel), step_send none (by decide +kernel)⟩
  exact ⟨h4, sent_nodup h4⟩

end PirMesh
