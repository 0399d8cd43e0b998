import PirMesh.Device.Join

/-! # Device — An accepted confirm stays accepted

Once a confirm has been accepted, the node is to sleep a second later and to
boot with the joined flag from then on.  What stands in the way is the check
for a rejected confirm: `end_config` does not clear `confirm_fail` when it
accepts, and sets it for a wrong confirm that comes later.  The check then
removes the node if it runs before the sleep does.

`OnTime` is the condition under which that does not happen, and
`accepted_not_removed` the result for all runs that meet it. -/

namespace PirMesh

open Nor Nor.Prog Run

variable {modZero : BitVec 16 → BitVec 16} {s t : Node}

/-! ### What a handler does to RAM -/

theorem endConfig_run (modZero : BitVec 16 → BitVec 16) (now : BitVec 32) (r : JoinRam)
    (par : Vector Byte 8) (f : Flash) :
    ((endConfig modZero now r par).run f).1 =
      if confirms modZero f par then
        ({ r with
            rdNodeAddr := ((rdFlashReadData nodeAdr).run f).1
            bindAllFlag := false, endConfigTime := now, confirmDone := true }, true)
      else
        ({ r with
            rdNodeAddr := ((rdFlashReadData nodeAdr).run f).1
            confirmFail := true, confirmFailTime := now }, false) := by
  have hiff : (confirms modZero f par = true) ↔ (rdRogoRuleConfirm modZero par ≠ 0 ∧
      ((rdFlashReadData nodeAdr).run f).1 = rdRogoRuleConfirm modZero par) := by
    simp [confirms]
  have hro : (rdFlashReadData nodeAdr).run f = (((rdFlashReadData nodeAdr).run f).1, f) := rfl
  rw [endConfig, run_bind_of hro, run_ite]
  by_cases hc : confirms modZero f par = true
  · rw [if_pos hc, if_pos (hiff.mp hc)]
    rfl
  · rw [if_neg hc, if_neg (mt hiff.mpr hc)]
    rfl

/-- The four things a message can do to the join variables. -/
theorem handled_cases (modZero : BitVec 16 → BitVec 16) (s : Node) (m : GwMsg) :
    (∃ par, m = .endConfig par ∧ confirms modZero s.flash par = true ∧
      (s.handled modZero m).accepted = true ∧
      ∃ a, (s.handled modZero m).ram = { s.ram with
        rdNodeAddr := a, bindAllFlag := false, endConfigTime := s.clock, confirmDone := true }) ∨
    ((s.handled modZero m).accepted = s.accepted ∧
      ((∃ a, (s.handled modZero m).ram = { s.ram with
          rdNodeAddr := a, confirmFail := true, confirmFailTime := s.clock }) ∨
        (∃ a, (s.handled modZero m).ram = { s.ram with
          rdNodeAddr := a, bindAllFlag := true, bindTime := s.clock }) ∨
        (s.handled modZero m).ram = s.ram)) := by
  cases m with
  | cfgBind par => exact .inr ⟨Bool.or_false _, .inr (.inl ⟨_, rfl⟩)⟩
  | typeDevice par => exact .inr ⟨Bool.or_false _, .inr (.inr rfl)⟩
  | sendData => exact .inr ⟨Bool.or_false _, .inr (.inr rfl)⟩
  | endConfig par =>
    have hrun := endConfig_run modZero s.clock s.ram par s.flash
    by_cases hc : confirms modZero s.flash par = true
    · rw [if_pos hc] at hrun
      refine .inl ⟨par, rfl, hc, ?_, _, congrArg Prod.fst hrun⟩
      simp only [Node.handled, handle, hrun, Bool.or_true]
    · rw [if_neg hc] at hrun
      refine .inr ⟨?_, .inl ⟨_, congrArg Prod.fst hrun⟩⟩
      simp only [Node.handled, handle, hrun, Bool.or_false]

@[simp] theorem handled_phase (s : Node) (m : GwMsg) :
    (s.handled modZero m).phase = s.phase := rfl

@[simp] theorem round_accepted (s : Node) (now : BitVec 32) :
    (s.round now).accepted = s.accepted := by
  unfold Node.round
  repeat' split
  all_goals rfl

/-! ### The condition -/

/-- Milliseconds from the accepted confirm of this boot to `t`. -/
def JoinRam.sinceConfirm (r : JoinRam) (t : BitVec 32) : Nat := (t - r.endConfigTime).toNat

/-- No confirm is accepted while a rejected one is outstanding, and the round in
which the second after the accepted confirm ends is over before a later rejected
confirm (or a later bind) is a second (two minutes) old. -/
def OnTime (modZero : BitVec 16 → BitVec 16) (s : Node) : NodeEvent → Prop
  | .msg (.endConfig par) =>
    s.phase = .loop → confirms modZero s.flash par = true → s.ram.confirmFail = false
  | .tick dt =>
    s.phase = .loop → s.accepted = true → 1000 ≤ s.ram.sinceConfirm s.clock + dt →
      (s.ram.confirmFail = true →
        s.ram.sinceConfirm s.clock + dt - 1000 < s.ram.sinceConfirm s.ram.confirmFailTime) ∧
      (s.ram.bindAllFlag = true →
        s.ram.sinceConfirm s.clock + dt - 1000 < 119000 + s.ram.sinceConfirm s.ram.bindTime)
  | _ => True

/-! ### The invariant -/

/-- The second after the accepted confirm is running, and what the checks look at
has happened in it. -/
structure Confirmed (clock : BitVec 32) (r : JoinRam) : Prop where
  done : r.confirmDone = true
  since : r.sinceConfirm clock < 1000
  fail : r.confirmFail = true → r.sinceConfirm r.confirmFailTime ≤ r.sinceConfirm clock
  bind : r.bindAllFlag = true → r.sinceConfirm r.bindTime ≤ r.sinceConfirm clock

/-- Neither of the two checks has removed the node. -/
def NotRemoved (s : Node) : Prop :=
  s.phase ≠ .left .joinConfirmCheck ∧ s.phase ≠ .left .confirmReceiveCheck

def JoinInv (s : Node) : Prop :=
  s.accepted = true → (s.phase = .loop → Confirmed s.clock s.ram) ∧ NotRemoved s

theorem sinceConfirm_add (r : JoinRam) (c : BitVec 32) (dt : Nat) :
    r.sinceConfirm (c + BitVec.ofNat 32 dt) = (r.sinceConfirm c + dt) % 2 ^ 32 := by
  unfold JoinRam.sinceConfirm
  simp only [BitVec.toNat_sub, BitVec.toNat_add, BitVec.toNat_ofNat]
  omega

/-- How old an event at `e` is at `c`, both counted from the accepted confirm. -/
theorem elapsed (r : JoinRam) {c e : BitVec 32} (h : r.sinceConfirm e ≤ r.sinceConfirm c) :
    (c - e).toNat = r.sinceConfirm c - r.sinceConfirm e := by
  unfold JoinRam.sinceConfirm at *
  bv_omega

/-- A handler keeps the second running, or starts it. -/
theorem Confirmed.handled (m : GwMsg) (hgood : OnTime modZero s (.msg m)) (hl : s.phase = .loop)
    (hs : s.accepted = true → Confirmed s.clock s.ram)
    (ha : (s.handled modZero m).accepted = true) :
    Confirmed s.clock (s.handled modZero m).ram := by
  rcases handled_cases modZero s m with
    ⟨par, rfl, hc, -, a, hram⟩ | ⟨hacc, ⟨a, hram⟩ | ⟨a, hram⟩ | hram⟩
  · have hfail := hgood hl hc
    rw [hram]
    exact ⟨rfl, by simp [JoinRam.sinceConfirm], by simp [hfail], by simp⟩
  · obtain ⟨hdone, hsince, -, hbind⟩ := hs (hacc ▸ ha)
    rw [hram]
    exact ⟨hdone, hsince, fun _ => Nat.le_refl _, hbind⟩
  · obtain ⟨hdone, hsince, hfail, -⟩ := hs (hacc ▸ ha)
    rw [hram]
    exact ⟨hdone, hsince, hfail, fun _ => Nat.le_refl _⟩
  · rw [hram]
    exact hs (hacc ▸ ha)

/-- A round of the loop: neither check fires, and unless the node goes to sleep
the second is still running. -/
theorem Confirmed.round {dt : Nat} (hgood : OnTime modZero s (.tick dt)) (hl : s.phase = .loop)
    (ha : s.accepted = true) (hs : Confirmed s.clock s.ram) :
    let now := s.clock + BitVec.ofNat 32 dt
    joinConfirmCheck now s.ram = false ∧ confirmReceiveCheck now s.ram = false ∧
      (sleepDue s.joinState now s.ram = false → Confirmed now s.ram) := by
  intro now
  have hnow : s.ram.sinceConfirm now = (s.ram.sinceConfirm s.clock + dt) % 2 ^ 32 :=
    sinceConfirm_add ..
  have hsince := hs.since
  -- an event the checks look at is young, and the clock has not gone round since the confirm
  have hyoung : ∀ (e : BitVec 32) (limit : Nat), 1000 ≤ limit → limit ≤ 120000 →
      s.ram.sinceConfirm e ≤ s.ram.sinceConfirm s.clock →
      (1000 ≤ s.ram.sinceConfirm s.clock + dt →
        s.ram.sinceConfirm s.clock + dt < limit + s.ram.sinceConfirm e) →
      s.ram.sinceConfirm e ≤ s.ram.sinceConfirm now ∧ (now - e).toNat < limit := by
    intro e limit h1 h2 he hlim
    have hle : s.ram.sinceConfirm e ≤ s.ram.sinceConfirm now := by omega
    exact ⟨hle, by rw [elapsed _ hle]; omega⟩
  have hfail : s.ram.confirmFail = true →
      s.ram.sinceConfirm s.ram.confirmFailTime ≤ s.ram.sinceConfirm now ∧
        (now - s.ram.confirmFailTime).toNat < 1000 := fun hf =>
    hyoung _ 1000 (Nat.le_refl _) (by decide) (hs.fail hf) fun hd => by
      have := (hgood hl ha hd).1 hf
      omega
  have hbind : s.ram.bindAllFlag = true →
      s.ram.sinceConfirm s.ram.bindTime ≤ s.ram.sinceConfirm now ∧
        (now - s.ram.bindTime).toNat < 120000 := fun hb =>
    hyoung _ 120000 (by decide) (Nat.le_refl _) (hs.bind hb) fun hd => by
      have := (hgood hl ha hd).2 hb
      omega
  refine ⟨?_, ?_, fun hawake => ⟨hs.done, ?_, fun hf => (hfail hf).1, fun hb => (hbind hb).1⟩⟩
  · refine Bool.eq_false_iff.mpr fun hj => ?_
    obtain ⟨hf, hge⟩ : s.ram.confirmFail = true ∧ 1000 ≤ (now - s.ram.confirmFailTime).toNat := by
      simpa [joinConfirmCheck] using hj
    exact absurd (hfail hf).2 (Nat.not_lt.mpr hge)
  · refine Bool.eq_false_iff.mpr fun hr => ?_
    obtain ⟨hb, hge⟩ : s.ram.bindAllFlag = true ∧ 120000 ≤ (now - s.ram.bindTime).toNat := by
      simpa [confirmReceiveCheck] using hr
    exact absurd (hbind hb).2 (Nat.not_lt.mpr hge)
  · have hdue : ¬ 1000 ≤ s.ram.sinceConfirm now := by
      simp only [sleepDue, hs.done, Bool.true_and, Bool.or_eq_false_iff, decide_eq_false_iff_not]
        at hawake
      exact hawake.2
    omega

/-! ### Steps and runs -/

theorem boot_phase (s : Node) : s.boot.phase = .report ∨ s.boot.phase = .left .main := by
  simp only [Node.boot]
  split
  · exact .inl rfl
  · exact .inr rfl

/-- Outside the loop there is nothing to keep but that the checks have not struck. -/
theorem JoinInv.outside (hl : s.phase ≠ .loop) (hn : NotRemoved s) : JoinInv s :=
  fun _ => ⟨fun h => absurd h hl, hn⟩

theorem JoinInv.msg (hs : JoinInv s) (m : GwMsg) (hgood : OnTime modZero s (.msg m))
    (hrun : s.running = true) : JoinInv (s.handled modZero m) := by
  intro ha
  refine ⟨fun hl => .handled m hgood hl (fun h => (hs h).1 hl) ha, ?_⟩
  constructor <;>
  · intro hp
    rw [handled_phase] at hp
    simp [Node.running, hp] at hrun

theorem JoinInv.round (hs : JoinInv s) {dt : Nat} (hgood : OnTime modZero s (.tick dt))
    (hl : s.phase = .loop) : JoinInv (s.round (s.clock + BitVec.ofNat 32 dt)) := by
  intro ha
  rw [round_accepted] at ha
  obtain ⟨hj, hr, hawake⟩ := ((hs ha).1 hl).round hgood hl ha
  unfold Node.round
  rw [if_neg (by simp [hj]), if_neg (by simp [hr])]
  split
  · exact ⟨fun h => by simp at h, by simp [NotRemoved]⟩
  · rename_i hd
    exact ⟨fun _ => hawake (by simpa using hd), by simp [NotRemoved, hl]⟩

theorem JoinInv.next (hs : JoinInv s) (e : NodeEvent) (hgood : OnTime modZero s e) :
    JoinInv (s.next modZero e) := by
  cases e with
  | boot =>
    simp only [Node.next]
    split
    · rcases boot_phase s with hp | hp <;> exact .outside (by simp [hp]) (by simp [NotRemoved, hp])
    · exact hs
  | msg m =>
    simp only [Node.next]
    split
    · rename_i hrun
      exact hs.msg m hgood hrun
    · exact hs
  | tick dt =>
    simp only [Node.next]
    split
    · rename_i hp
      exact .outside (by simp [hp]) (by simp [NotRemoved, hp])
    · rename_i hp
      exact hs.round hgood hp
    · exact hs
  | sleepAfterSend =>
    simp only [Node.next]
    split
    · exact .outside (by simp) (by simp [NotRemoved])
    · exact hs
  | cut m n =>
    simp only [Node.next]
    split
    · exact .outside (by simp) (by simp [NotRemoved])
    · exact hs

/-- **An accepted confirm stays accepted** in every run that is on time. -/
theorem accepted_not_removed (modZero : BitVec 16 → BitVec 16)
    (h : ((joinSys modZero).restrict (OnTime modZero)).Reach s) (ha : s.accepted = true) :
    NotRemoved s := by
  have hinv : JoinInv s := h.inv (P := JoinInv)
    (fun s hs ha => absurd ha (by simp [hs.2]))
    fun s e t hs ⟨hgood, ht⟩ => ht ▸ hs.next e hgood
  exact (hinv ha).2

/-! ### A rejected confirm before the accepted one -/

/-- A node of address 2 that waits for its confirm. -/
def joiningNode : Node where
  flash := Flash.write (fun _ => blank) nodeAdr [2, 0]
  phase := .loop
  joinState := blank
  ram := {}
  clock := 0
  accepted := false

theorem reach_joiningNode (modZero : BitVec 16 → BitVec 16) :
    (joinSys modZero).Reach joiningNode :=
  .init ⟨fun _ hp => by simp [joiningNode] at hp, rfl⟩

/-- 9 mod 5 = 4, 7 mod 4 = 3, 5 mod 3 = 2. -/
def rightConfirm : GwMsg := .endConfig #v[0, 9, 0, 5, 0, 7, 0, 5]

def wrongConfirm : GwMsg := .endConfig #v[0, 0, 0, 0, 0, 0, 0, 0]

/-- A wrong confirm, half a second later the right one: the check still fires. -/
theorem accepted_removed : ¬ ∀ (modZero : BitVec 16 → BitVec 16) (s : Node),
    (joinSys modZero).Reach s → s.accepted = true → NotRemoved s := by
  intro h
  have hrun := Sys.reach_foldl (reach_joiningNode id)
    [.msg wrongConfirm, .tick 500, .msg rightConfirm, .tick 500]
  exact (h id _ hrun (by decide +kernel)).1 (by decide +kernel)

/-- The right confirm alone. -/
theorem accepted_not_removed_once :
    ((joinSys id).restrict (OnTime id)).Reach (joiningNode.next id (.msg rightConfirm)) ∧
      NotRemoved (joiningNode.next id (.msg rightConfirm)) := by
  have hstart : ((joinSys id).restrict (OnTime id)).Reach joiningNode :=
    .init ⟨fun _ hp => by simp [joiningNode] at hp, rfl⟩
  have hrun : ((joinSys id).restrict (OnTime id)).Reach (joiningNode.next id (.msg rightConfirm)) :=
    .step hstart (e := .msg rightConfirm) ⟨fun _ _ => rfl, rfl⟩
  exact ⟨hrun, accepted_not_removed id hrun (by decide +kernel)⟩

end PirMesh
