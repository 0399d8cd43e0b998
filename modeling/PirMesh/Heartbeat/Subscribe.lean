import PirMesh.Heartbeat.Publish
import PirMesh.Library.Run
import PirMesh.Node.Ticks
import PirMesh.Prov.Gatt

/-! # Heartbeat — Subscription (`app_heartbeat.c`)

A subscription is to the heartbeats from one source to one destination, for a period.  It
counts them and keeps the least and the most hops one of them took.

`mesh_process_hb_sub` looks at the source only, does not hold the count at its end, and
stores hops of the last heartbeat: `HeartbeatSubRun.InTurn` is exactly when the statistics
are right in spite of that (`heartbeatSub_iff`). -/

namespace PirMesh

open Nor Run

/-! ### The state and its inputs -/

/-- `mesh_heartbeat_sub_str`, and `hb_sub_100ms`. -/
structure MeshHeartbeatSub where
  adr : BitVec 16
  dst : BitVec 16
  perLog : Byte
  cntLog : Byte
  minHops : Byte
  maxHops : Byte
  perVal : BitVec 16
  cntVal : BitVec 16
  hbSub100ms : BitVec 32
  deriving DecidableEq, Repr

/-- `mesh_cfg_model_heartbeat_sub_set_t` -/
structure HeartbeatSubSet where
  src : BitVec 16
  dst : BitVec 16
  periodLog : Byte
  deriving DecidableEq, Repr

/-- A heartbeat that is received: its addresses and its TTL, and the one it was sent with. -/
structure HeartbeatRx where
  src : BitVec 16
  dst : BitVec 16
  ttl : BitVec 7
  iniTTL : BitVec 7
  deriving DecidableEq, Repr

/-! ### The code -/

def meshCmdSigHeartbeatSubSet (isGroupAdr : BitVec 16 → Bool) (eleAdrPrimary : BitVec 16)
    (p : HeartbeatSubSet) (clock100ms : BitVec 32) (sub : MeshHeartbeatSub) : MeshHeartbeatSub :=
  if ¬ (isUnicastAdr p.src.toNat ∨ p.src = 0) then sub
  else
    let sub := { sub with adr := p.src }
    if ¬ (p.dst = eleAdrPrimary ∨ isGroupAdr p.dst ∨ p.dst = 0) then sub
    else
      let sub := { sub with dst := p.dst, perLog := p.periodLog }
      let sub :=
        if p.src = 0 ∨ p.dst = 0 then
          { sub with adr := 0, dst := 0, perLog := 0, cntLog := 0, cntVal := 0 }
        else sub
      let sub :=
        if isUnicastAdr p.src.toNat ∧ (isGroupAdr p.dst ∨ isUnicastAdr p.dst.toNat) ∧
            p.periodLog ≠ 0 then
          { sub with cntLog := 0, cntVal := 0, minHops := 0x7f, maxHops := 0 }
        else sub
      { sub with perVal := getCntLogToVal sub.perLog, hbSub100ms := clock100ms }

/-- The statistics with one more heartbeat. -/
def MeshHeartbeatSub.counted (sub : MeshHeartbeatSub) (m : HeartbeatRx) : MeshHeartbeatSub :=
  { sub with
    minHops := if m.iniTTL ≠ 0 then 1 else 0
    maxHops := m.iniTTL.setWidth 8 - m.ttl.setWidth 8 + 1
    cntVal := sub.cntVal + 1
    cntLog := calHeartbeatCountLog (sub.cntVal + 1) }

def meshProcessHbSub (m : HeartbeatRx) (sub : MeshHeartbeatSub) : MeshHeartbeatSub :=
  if sub.dst = 0 ∨ sub.adr = 0 ∨ sub.perLog = 0 then sub
  else if sub.adr ≠ m.src then sub
  else sub.counted m

/-- The period in seconds, `none` where the poll returns. -/
def heartbeatSubPer (perLog : Byte) : Option (BitVec 32) :=
  if perLog = 0 then some 0
  else if perLog ≤ 0x11 then some (1 <<< (perLog.toNat - 1))
  else none

def meshHeartbeatSubPoll (clock100ms : BitVec 32) (sub : MeshHeartbeatSub) : MeshHeartbeatSub :=
  if sub.perVal = 0 then sub
  else
    match heartbeatSubPer sub.perLog with
    | none => sub
    | some per =>
      if clockTimeExceed100ms clock100ms sub.hbSub100ms (per * 10) then
        { sub with
          hbSub100ms := clock100ms
          perVal := sub.perVal - 1
          perLog := calHeartbeatCountLog (sub.perVal - 1) }
      else sub

/-! ### Runs -/

/-- The subscription, and what is not in the code: the heartbeats that are of it. -/
structure HeartbeatSubRun where
  sub : MeshHeartbeatSub
  heard : List HeartbeatRx

inductive HeartbeatSubEvent
  | message (m : HeartbeatRx)
  | poll (clock100ms : BitVec 32)

/-- `initTTL - receivedTTL + 1` -/
def HeartbeatRx.hops (m : HeartbeatRx) : ℤ := m.iniTTL.toNat - m.ttl.toNat + 1

/-- What `min_hops` says of a heartbeat. -/
def HeartbeatRx.floor (m : HeartbeatRx) : ℤ := if m.iniTTL ≠ 0 then 1 else 0

namespace HeartbeatSubRun

def next (t : HeartbeatSubRun) : HeartbeatSubEvent → HeartbeatSubRun
  | .message m =>
    ⟨meshProcessHbSub m t.sub,
      if m.src = t.sub.adr ∧ m.dst = t.sub.dst then t.heard ++ [m] else t.heard⟩
  | .poll clock100ms => { t with sub := meshHeartbeatSubPoll clock100ms t.sub }

/-- The statistics are those of the heartbeats that were heard; of none, they are the initial
values. -/
structure Counts (t : HeartbeatSubRun) : Prop where
  count : t.sub.cntVal.toNat = min t.heard.length 0xffff
  least : (t.sub.minHops.toNat : ℤ) = ((t.heard.map HeartbeatRx.hops).min?).getD 0x7f
  most : (t.sub.maxHops.toNat : ℤ) = ((t.heard.map HeartbeatRx.hops).max?).getD 0

/-- As long as the period has not run out. -/
def Right (t : HeartbeatSubRun) : Prop := t.sub.perLog ≠ 0 → t.Counts

/-- A heartbeat from the source is to the destination too; the count does not come to its end; one
heartbeat so far took the hops that are stored for the least, and none took fewer; and this one
takes no fewer than any before. -/
def InTurn (t : HeartbeatSubRun) : HeartbeatSubEvent → Prop
  | .message m =>
    t.sub.perLog ≠ 0 → m.src = t.sub.adr →
      m.dst = t.sub.dst ∧ t.heard.length < 0xffff ∧
        ((∃ x ∈ t.heard ++ [m], x.hops = m.floor) ∧ ∀ x ∈ t.heard ++ [m], m.floor ≤ x.hops) ∧
        0 ≤ m.hops ∧ ∀ x ∈ t.heard, x.hops ≤ m.hops
  | .poll _ => True

end HeartbeatSubRun

/-! ### The least and the most -/

theorem min?_getD_eq_iff {l : List ℤ} (hne : l ≠ []) (d v : ℤ) :
    l.min?.getD d = v ↔ v ∈ l ∧ ∀ b ∈ l, v ≤ b := by
  obtain ⟨a, ha⟩ := Option.isSome_iff_exists.mp (List.isSome_min?_of_ne_nil hne)
  have hiff : l.min? = some v ↔ v ∈ l ∧ ∀ b ∈ l, v ≤ b := List.min?_eq_some_iff
  rw [ha] at hiff ⊢
  exact (Option.some_inj (a := a) (b := v)).symm.trans hiff

theorem max?_getD_eq_iff {l : List ℤ} (hne : l ≠ []) (d v : ℤ) :
    l.max?.getD d = v ↔ v ∈ l ∧ ∀ b ∈ l, b ≤ v := by
  obtain ⟨a, ha⟩ := Option.isSome_iff_exists.mp (List.isSome_max?_of_ne_nil hne)
  have hiff : l.max? = some v ↔ v ∈ l ∧ ∀ b ∈ l, b ≤ v := List.max?_eq_some_iff
  rw [ha] at hiff ⊢
  exact (Option.some_inj (a := a) (b := v)).symm.trans hiff

section

variable {heard : List HeartbeatRx} {m : HeartbeatRx}

theorem hops_le (m : HeartbeatRx) : -126 ≤ m.hops ∧ m.hops ≤ 128 := by
  have httl := m.ttl.isLt
  have hini := m.iniTTL.isLt
  unfold HeartbeatRx.hops
  omega

/-- What is stored for the most hops. -/
theorem maxHops_toNat (m : HeartbeatRx) :
    ((m.iniTTL.setWidth 8 - m.ttl.setWidth 8 + 1 : Byte).toNat : ℤ) =
      if 0 ≤ m.hops then m.hops else m.hops + 256 := by
  have httl := m.ttl.isLt
  have hini := m.iniTTL.isLt
  have hone : (1 : Byte).toNat = 1 := rfl
  rw [BitVec.toNat_add, BitVec.toNat_sub, BitVec.toNat_setWidth, BitVec.toNat_setWidth, hone]
  unfold HeartbeatRx.hops
  split_ifs
  · omega
  · omega

theorem minHops_toNat (m : HeartbeatRx) :
    ((if m.iniTTL ≠ 0 then 1 else 0 : Byte).toNat : ℤ) = m.floor := by
  unfold HeartbeatRx.floor
  split_ifs
  · rfl
  · rfl

theorem map_concat_ne_nil : (heard ++ [m]).map HeartbeatRx.hops ≠ [] := by
  intro h
  exact List.append_ne_nil_of_right_ne_nil heard (List.cons_ne_nil m []) (List.map_eq_nil_iff.mp h)

theorem least_iff : m.floor = (((heard ++ [m]).map HeartbeatRx.hops).min?).getD 0x7f ↔
    (∃ x ∈ heard ++ [m], x.hops = m.floor) ∧ ∀ x ∈ heard ++ [m], m.floor ≤ x.hops := by
  rw [eq_comm, min?_getD_eq_iff map_concat_ne_nil, List.mem_map, List.forall_mem_map]

/-- Wrapped hops are more than any other. -/
theorem most_iff : (if 0 ≤ m.hops then m.hops else m.hops + 256) =
      (((heard ++ [m]).map HeartbeatRx.hops).max?).getD 0 ↔
    0 ≤ m.hops ∧ ∀ x ∈ heard, x.hops ≤ m.hops := by
  rw [eq_comm, max?_getD_eq_iff map_concat_ne_nil, List.mem_map, List.forall_mem_map]
  by_cases hnn : 0 ≤ m.hops
  · rw [if_pos hnn, and_iff_right hnn]
    constructor
    · rintro ⟨-, hle⟩ x hx
      exact hle x (List.mem_append_left _ hx)
    · intro hle
      refine ⟨⟨m, List.mem_append_right _ (List.mem_singleton_self m), rfl⟩, fun x hx => ?_⟩
      rcases List.mem_append.mp hx with hx | hx
      · exact hle x hx
      · rw [List.mem_singleton.mp hx]
  · -- they are at least 130, and no other hops are above 128
    rw [if_neg hnn]
    refine iff_of_false ?_ fun h => hnn h.1
    rintro ⟨⟨x, -, hx⟩, -⟩
    have hm := hops_le m
    have hle := hops_le x
    omega

end

/-! ### One event -/

theorem calHeartbeatCountLog_eq_zero {val : BitVec 16} (h : calHeartbeatCountLog val = 0) :
    val = 0 := by
  by_contra hne
  unfold calHeartbeatCountLog at h
  rw [if_neg hne] at h
  split_ifs at h
  · exact absurd h (by decide)
  · unfold getHighBits at h
    cases hf : (List.range 16).find? fun i => val.toNat < 2 ^ i with
    | none =>
      rw [hf] at h
      exact absurd h (by decide)
    | some i =>
      rw [hf] at h
      dsimp only at h
      rw [BitVec.sub_add_cancel] at h
      have hi := List.mem_range.mp (List.mem_of_find?_eq_some hf)
      have hlt : val.toNat < 2 ^ i :=
        of_decide_eq_true (List.find?_some (p := fun i => decide (val.toNat < 2 ^ i)) hf)
      -- the length of `val` in bits
      have hi0 : i = 0 := by
        have hzero := congrArg BitVec.toNat h
        rw [BitVec.toNat_ofNat, Nat.mod_eq_of_lt (by omega)] at hzero
        exact hzero
      rw [hi0] at hlt
      exact hne (BitVec.eq_of_toNat_eq (Nat.lt_one_iff.mp hlt))

namespace HeartbeatSubRun

/-- The subscription stays on its addresses, and is not counted down behind its end. -/
structure Subscribed (t : HeartbeatSubRun) : Prop where
  adr : t.sub.adr ≠ 0
  dst : t.sub.dst ≠ 0
  ended : t.sub.perLog = 0 → t.sub.perVal = 0

variable {t : HeartbeatSubRun} {m : HeartbeatRx}

/-- A heartbeat from the source, in the period. -/
theorem process_of_src (h : t.Subscribed) (hper : t.sub.perLog ≠ 0) (hsrc : m.src = t.sub.adr) :
    meshProcessHbSub m t.sub = t.sub.counted m := by
  unfold meshProcessHbSub
  rw [if_neg (not_or.mpr ⟨h.dst, not_or.mpr ⟨h.adr, hper⟩⟩), if_neg (not_not.mpr hsrc.symm)]

theorem process_of_not (h : ¬ (t.sub.perLog ≠ 0 ∧ m.src = t.sub.adr)) :
    meshProcessHbSub m t.sub = t.sub := by
  unfold meshProcessHbSub
  split_ifs with hoff hsrc
  · rfl
  · rfl
  · exact absurd ⟨fun h0 => hoff (.inr (.inr h0)), (not_not.mp hsrc).symm⟩ h

theorem Subscribed.next (h : t.Subscribed) (e : HeartbeatSubEvent) : (t.next e).Subscribed := by
  cases e with
  | message m =>
    by_cases hcounts : t.sub.perLog ≠ 0 ∧ m.src = t.sub.adr
    · have hprocess := process_of_src h hcounts.1 hcounts.2
      refine ⟨?_, ?_, ?_⟩
      · exact fun h0 => h.adr ((congrArg MeshHeartbeatSub.adr hprocess).symm.trans h0)
      · exact fun h0 => h.dst ((congrArg MeshHeartbeatSub.dst hprocess).symm.trans h0)
      · exact fun h0 => absurd ((congrArg MeshHeartbeatSub.perLog hprocess).symm.trans h0) hcounts.1
    · have hprocess := process_of_not hcounts
      refine ⟨?_, ?_, ?_⟩
      · exact fun h0 => h.adr ((congrArg MeshHeartbeatSub.adr hprocess).symm.trans h0)
      · exact fun h0 => h.dst ((congrArg MeshHeartbeatSub.dst hprocess).symm.trans h0)
      · intro h0
        refine (congrArg MeshHeartbeatSub.perVal hprocess).trans (h.ended ?_)
        exact (congrArg MeshHeartbeatSub.perLog hprocess).symm.trans h0
  | poll clock100ms =>
    unfold HeartbeatSubRun.next meshHeartbeatSubPoll
    dsimp only
    by_cases h0 : t.sub.perVal = 0
    · rw [if_pos h0]
      exact h
    · rw [if_neg h0]
      cases heartbeatSubPer t.sub.perLog with
      | none => exact h
      | some per =>
        dsimp only
        split_ifs
        · exact ⟨h.adr, h.dst, calHeartbeatCountLog_eq_zero⟩
        · exact h

/-- The poll leaves the statistics. -/
theorem poll_right (h : t.Subscribed) (hright : t.Right) (clock100ms : BitVec 32) :
    (t.next (.poll clock100ms)).Right := by
  unfold HeartbeatSubRun.next meshHeartbeatSubPoll
  dsimp only
  by_cases h0 : t.sub.perVal = 0
  · rw [if_pos h0]
    exact hright
  · have hcounts := hright fun hper => h0 (h.ended hper)
    rw [if_neg h0]
    cases heartbeatSubPer t.sub.perLog with
    | none => exact hright
    | some per =>
      dsimp only
      split_ifs
      · exact fun _ => ⟨hcounts.count, hcounts.least, hcounts.most⟩
      · exact hright

theorem count_iff (hcount : t.sub.cntVal.toNat = min t.heard.length 0xffff) :
    (t.sub.cntVal + 1).toNat = min (t.heard ++ [m]).length 0xffff ↔ t.heard.length < 0xffff := by
  have hone : (1 : BitVec 16).toNat = 1 := rfl
  rw [BitVec.toNat_add, hone, hcount, List.length_append, List.length_singleton]
  omega

/-- **One event** keeps the statistics right exactly when it is in turn. -/
theorem right_iff (h : t.Subscribed) (hright : t.Right) (e : HeartbeatSubEvent) :
    (t.next e).Right ↔ t.InTurn e := by
  cases e with
  | poll clock100ms => exact iff_of_true (poll_right h hright clock100ms) trivial
  | message m =>
    by_cases hcounts : t.sub.perLog ≠ 0 ∧ m.src = t.sub.adr
    · -- counted whatever the destination is
      obtain ⟨hper, hsrc⟩ := hcounts
      have hbefore := hright hper
      have hturn : t.InTurn (.message m) ↔ _ := forall_prop_of_true hper |>.trans
        (forall_prop_of_true hsrc)
      have hnext : (t.next (.message m)).Right ↔ (t.next (.message m)).Counts := by
        refine forall_prop_of_true ?_
        exact fun h0 => hper ((congrArg MeshHeartbeatSub.perLog
          (process_of_src h hper hsrc)).symm.trans h0)
      rw [hturn, hnext]
      by_cases hdst : m.dst = t.sub.dst
      · have hstate : t.next (.message m) = ⟨t.sub.counted m, t.heard ++ [m]⟩ := by
          unfold HeartbeatSubRun.next
          dsimp only
          rw [process_of_src h hper hsrc, if_pos ⟨hsrc, hdst⟩]
        rw [hstate, and_iff_right hdst]
        constructor
        · rintro ⟨hcount, hleast, hmost⟩
          refine ⟨(count_iff hbefore.count).mp hcount, least_iff.mp ?_, most_iff.mp ?_⟩
          · exact (minHops_toNat m).symm.trans hleast
          · exact (maxHops_toNat m).symm.trans hmost
        · rintro ⟨hlen, hleast, hmost⟩
          refine ⟨(count_iff hbefore.count).mpr hlen, ?_, ?_⟩
          · exact (minHops_toNat m).trans (least_iff.mpr hleast)
          · exact (maxHops_toNat m).trans (most_iff.mpr hmost)
      · refine iff_of_false (fun hc => ?_) fun hc => hdst hc.1
        have hstate : t.next (.message m) = ⟨t.sub.counted m, t.heard⟩ := by
          unfold HeartbeatSubRun.next
          dsimp only
          rw [process_of_src h hper hsrc, if_neg fun hm => hdst hm.2]
        rw [hstate] at hc
        -- it is counted, and is none of those that should be
        have hone : (1 : BitVec 16).toNat = 1 := rfl
        have hlt := t.sub.cntVal.isLt
        have hsum : (t.sub.cntVal + 1).toNat = min t.heard.length 0xffff := hc.count
        rw [← hbefore.count, BitVec.toNat_add, hone] at hsum
        omega
    · have hturn : t.InTurn (.message m) := fun hper hsrc => absurd ⟨hper, hsrc⟩ hcounts
      refine iff_of_true ?_ hturn
      unfold HeartbeatSubRun.next
      dsimp only
      rw [process_of_not hcounts]
      intro hper
      rw [if_neg fun hm => hcounts ⟨hper, hm.1⟩]
      exact hright hper

end HeartbeatSubRun

/-! ### From the set on -/

/-- A set that is accepted, with a source, a destination and a period. -/
structure HeartbeatSubSet.Subscribes (isGroupAdr : BitVec 16 → Bool) (eleAdrPrimary : BitVec 16)
    (p : HeartbeatSubSet) : Prop where
  src : isUnicastAdr p.src.toNat = true
  dst : p.dst ≠ 0
  own : p.dst = eleAdrPrimary ∨ isGroupAdr p.dst = true
  period : p.periodLog ≠ 0

namespace HeartbeatSubRun

variable {isGroupAdr : BitVec 16 → Bool} {eleAdrPrimary : BitVec 16} {p : HeartbeatSubSet}

/-- The subscription that was set, before any heartbeat. -/
def start (isGroupAdr : BitVec 16 → Bool) (eleAdrPrimary : BitVec 16) (p : HeartbeatSubSet)
    (clock100ms : BitVec 32) (sub : MeshHeartbeatSub) : HeartbeatSubRun :=
  ⟨meshCmdSigHeartbeatSubSet isGroupAdr eleAdrPrimary p clock100ms sub, []⟩

theorem set_eq (h : p.Subscribes isGroupAdr eleAdrPrimary)
    (hele : isUnicastAdr eleAdrPrimary.toNat = true) (clock100ms : BitVec 32)
    (sub : MeshHeartbeatSub) :
    meshCmdSigHeartbeatSubSet isGroupAdr eleAdrPrimary p clock100ms sub =
      { adr := p.src, dst := p.dst, perLog := p.periodLog, cntLog := 0, minHops := 0x7f,
        maxHops := 0, perVal := getCntLogToVal p.periodLog, cntVal := 0,
        hbSub100ms := clock100ms } := by
  have hsrc : p.src ≠ 0 := by
    intro h0
    have hunicast := h.src
    rw [h0] at hunicast
    exact absurd hunicast (by decide)
  have hdst : isGroupAdr p.dst = true ∨ isUnicastAdr p.dst.toNat = true := by
    rcases h.own with heq | hgroup
    · exact .inr (heq ▸ hele)
    · exact .inl hgroup
  have hown : p.dst = eleAdrPrimary ∨ isGroupAdr p.dst = true ∨ p.dst = 0 :=
    h.own.imp_right .inl
  unfold meshCmdSigHeartbeatSubSet
  rw [if_neg (not_not.mpr (.inl h.src))]
  simp only
  rw [if_neg (not_not.mpr hown), if_neg (not_or.mpr ⟨hsrc, h.dst⟩), if_pos ⟨h.src, hdst, h.period⟩]

theorem start_subscribed (h : p.Subscribes isGroupAdr eleAdrPrimary)
    (hele : isUnicastAdr eleAdrPrimary.toNat = true) (clock100ms : BitVec 32)
    (sub : MeshHeartbeatSub) :
    (start isGroupAdr eleAdrPrimary p clock100ms sub).Subscribed := by
  unfold start
  rw [set_eq h hele]
  refine ⟨fun h0 => ?_, h.dst, fun h0 => absurd h0 h.period⟩
  have hunicast := h.src
  rw [show p.src = 0 from h0] at hunicast
  exact absurd hunicast (by decide)

theorem start_right (h : p.Subscribes isGroupAdr eleAdrPrimary)
    (hele : isUnicastAdr eleAdrPrimary.toNat = true) (clock100ms : BitVec 32)
    (sub : MeshHeartbeatSub) : (start isGroupAdr eleAdrPrimary p clock100ms sub).Right := by
  unfold start
  rw [set_eq h hele]
  exact fun _ => ⟨rfl, rfl, rfl⟩

end HeartbeatSubRun

/-- **The statistics of a subscription** are right at every moment of its period exactly when every
heartbeat is in turn. -/
theorem heartbeatSub_iff (isGroupAdr : BitVec 16 → Bool) (eleAdrPrimary : BitVec 16)
    (p : HeartbeatSubSet) (clock100ms : BitVec 32) (sub : MeshHeartbeatSub)
    (es : List HeartbeatSubEvent) (hele : isUnicastAdr eleAdrPrimary.toNat = true)
    (h : p.Subscribes isGroupAdr eleAdrPrimary) :
    (∀ q, q <+: es → (q.foldl HeartbeatSubRun.next
        (.start isGroupAdr eleAdrPrimary p clock100ms sub)).Right) ↔
      GoodRun HeartbeatSubRun.next HeartbeatSubRun.InTurn
        (.start isGroupAdr eleAdrPrimary p clock100ms sub) es := by
  have hstart := HeartbeatSubRun.start_subscribed h hele clock100ms sub
  have hsub : ∀ q : List HeartbeatSubEvent, (q.foldl HeartbeatSubRun.next
      (.start isGroupAdr eleAdrPrimary p clock100ms sub)).Subscribed := by
    intro q
    exact foldl_hist (P := fun _ (t : HeartbeatSubRun) => t.Subscribed) hstart
      (fun _ _ e ht => ht.next e) q
  have hone : ∀ t : HeartbeatSubRun, ∀ e ∈ es, t.Subscribed ∧ t.Right →
      (((t.next e).Subscribed ∧ (t.next e).Right) ↔ t.InTurn e) := by
    intro t e _ ht
    exact (and_iff_right (ht.1.next e)).trans (HeartbeatSubRun.right_iff ht.1 ht.2 e)
  refine Iff.trans ?_ (forall_prefix_iff_goodRun
    (P := fun t : HeartbeatSubRun => t.Subscribed ∧ t.Right)
    ⟨hstart, HeartbeatSubRun.start_right h hele clock100ms sub⟩ hone)
  exact forall_congr' fun q => ⟨fun hr hq => ⟨hsub q, hr hq⟩, fun hr hq => (hr hq).2⟩

/-- One heartbeat of a neighbour, to node 2. -/
theorem heartbeatSub_iff_neighbour : ([HeartbeatSubEvent.message ⟨1, 2, 5, 5⟩].foldl
    HeartbeatSubRun.next (.start (fun _ => false) 2 ⟨1, 2, 3⟩ 0
      ⟨0, 0, 0, 0, 0, 0, 0, 0, 0⟩)).Right :=
  (heartbeatSub_iff (fun _ => false) 2 ⟨1, 2, 3⟩ 0 ⟨0, 0, 0, 0, 0, 0, 0, 0, 0⟩
    [.message ⟨1, 2, 5, 5⟩] (by decide) ⟨by decide, by decide, by decide, by decide⟩).mpr
    ⟨fun _ _ => ⟨by decide, by decide, ⟨by decide, by decide⟩, by decide, by decide⟩, trivial⟩
    _ List.prefix_rfl

/-- One heartbeat that took three hops. -/
theorem heartbeatSub_refuted : ¬ ∀ (isGroupAdr : BitVec 16 → Bool) (eleAdrPrimary : BitVec 16)
    (p : HeartbeatSubSet) (clock100ms : BitVec 32) (sub : MeshHeartbeatSub)
    (es : List HeartbeatSubEvent), isUnicastAdr eleAdrPrimary.toNat = true →
    p.Subscribes isGroupAdr eleAdrPrimary → (es.foldl HeartbeatSubRun.next
      (.start isGroupAdr eleAdrPrimary p clock100ms sub)).Right := by
  intro h
  have hright := h (fun _ => false) 2 ⟨1, 2, 3⟩ 0 ⟨0, 0, 0, 0, 0, 0, 0, 0, 0⟩
    [.message ⟨1, 2, 3, 5⟩] (by decide) ⟨by decide, by decide, by decide, by decide⟩
  exact absurd (hright (by decide)).least (by decide)

end PirMesh
