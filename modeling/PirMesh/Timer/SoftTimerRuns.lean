import PirMesh.Timer.SoftTimer

/-! # Timer — The table over all runs

The expiry times of a table are compared on a circle, so they are in order only while
they lie within the range of the comparison, a quarter of the counter (`InRange`).
Then sorting sorts (`sort_timers`), and the table is sorted between any two calls
(`timerOk_reach`).

A pass does nothing while the head is not due.  Otherwise it calls the due timers, keeps
the others, and wakes up for the head of what is left if that is less than 3 s away
(`softTimer_process`).  It reads the counter 128 us ahead and takes a timer that is more
than 4 s late for one that is not due. -/

namespace PirMesh

open Circular Run

variable {Cb : Type} {b : BltSoftTimer Cb} {s : TimerState Cb} {x y : BltTimeEvent Cb}
  {l l' : List (BltTimeEvent Cb)} {now : Tick} {res : Nat → Int}

/-! ### Order -/

def Sorted (l : List (BltTimeEvent Cb)) : Prop := l.Pairwise fun x y => NotBefore (2 ^ 30) x.t y.t

/-- The expiry times lie within the range of the comparison. -/
def InRange (l : List (BltTimeEvent Cb)) : Prop := ∃ base, ∀ x ∈ l, Within (2 ^ 30) base x.t

theorem InRange.perm (h : InRange l) (hp : l'.Perm l) : InRange l' := by
  obtain ⟨base, hb⟩ := h
  exact ⟨base, fun x hx => hb x (hp.mem_iff.mp hx)⟩

theorem sort_perm (b : BltSoftTimer Cb) : (bltSoftTimerSort b).timers.Perm b.timers :=
  (BubbleSort.moves_sort b.currentNum b.timer).perm

/-- **Sorting** a table whose times are in range. -/
theorem sort_timers (h : InRange b.timers) : Sorted (bltSoftTimerSort b).timers := by
  obtain ⟨base, hb⟩ := h
  have hP : ∀ k < b.currentNum, Within (2 ^ 30) base (b.timer k).t := by
    intro k hk
    exact hb _ (List.mem_map_of_mem (List.mem_range.mpr hk))
  have hbig (x y : BltTimeEvent Cb) (hx : Within (2 ^ 30) base x.t)
    (hy : Within (2 ^ 30) base y.t) :
      timeCompareBig x.t y.t = true ↔ off base y.t ≤ off base x.t :=
    decide_eq_true_iff.trans (notBefore_iff (by decide) hy hx)
  have hsorted := BubbleSort.sort_sorted (fun x : BltTimeEvent Cb => off base x.t)
    (fun x => Within (2 ^ 30) base x.t) hbig hP
  have hmoves : BubbleSort.Moves b.currentNum b.timer (bltSoftTimerSort b).timer :=
    BubbleSort.moves_sort b.currentNum b.timer
  have hall := hmoves.all (P := fun x => Within (2 ^ 30) base x.t) hP
  refine List.pairwise_iff_getElem.mpr fun i j hi hj hij => ?_
  rw [length_timers] at hi hj
  rw [getElem_timers, getElem_timers]
  exact (notBefore_iff (by decide) (hall i hi) (hall j hj)).mpr (hsorted i j hij hj)

/-- The time of a timer behind a head that is still to come. -/
theorem not_expired_of_head (hx : (now + bltTimerSafeMarginPre - x.t).toNat ≥ 2 ^ 31)
    (hxy : NotBefore (2 ^ 30) x.t y.t) : bltIsTimerExpired y.t now = false := by
  have hsub : now + bltTimerSafeMarginPre - x.t =
      (now + bltTimerSafeMarginPre - y.t) + (y.t - x.t) := (sub_add_sub_cancel _ _ _).symm
  rw [hsub, BitVec.toNat_add] at hx
  unfold NotBefore at hxy
  refine decide_eq_false fun hexp => ?_
  have hpost : bltTimerSafeMarginPost = 64000000 := rfl
  omega

/-! ### Between two calls -/

/-- A head the pass takes for due. -/
def HeadExpired (now : Tick) (l : List (BltTimeEvent Cb)) : Prop :=
  ∃ x ∈ l.head?, bltIsTimerExpired x.t now = true

/-- The wake-up a pass sets for the timers it leaves. -/
def wakeupFor (now : Tick) (l : List (BltTimeEvent Cb)) : Option Tick :=
  l.head?.bind fun x => if (x.t - now).toNat < 3000 * clk1ms then some x.t else none

theorem head_timers (b : BltSoftTimer Cb) :
    b.timers.head? = if b.currentNum = 0 then none else some (b.timer 0) := by
  unfold BltSoftTimer.timers
  cases b.currentNum with
  | zero => rfl
  | succ n => simp [List.range_succ_eq_map]

theorem nearWakeup_eq (h : b.currentNum ≠ 0) : nearWakeup b now = wakeupFor now b.timers := by
  rw [wakeupFor, head_timers, if_neg h]
  rfl

theorem sort_empty (h : b.currentNum = 0) : bltSoftTimerSort b = b := by
  rw [bltSoftTimerSort, h]
  exact congrArg _ h.symm

structure TimerOk (b : BltSoftTimer Cb) : Prop where
  room : b.currentNum ≤ maxTimerNum
  sorted : Sorted b.timers

theorem process_idle (h : ¬ HeadExpired now s.blt.timers) :
    bltSoftTimerProcess now res s =
      ({ s with appWakeup := if s.blt.currentNum = 0 then none else s.appWakeup }, []) := by
  unfold bltSoftTimerProcess
  by_cases h0 : s.blt.currentNum = 0
  · simp only [if_pos h0]
  · have hquiet : bltIsTimerExpired (s.blt.timer 0).t now = false := by
      refine Bool.eq_false_iff.mpr fun hexp => h ⟨_, ?_, hexp⟩
      rw [head_timers, if_neg h0]
      rfl
    simp only [if_neg h0, hquiet, Bool.not_false, if_true]

variable (res) in
/-- A pass over a table with a due head, in terms of the loop. -/
theorem process_due (h : HeadExpired now s.blt.timers) :
    ∃ p : Pass Cb, p.blt.timers = passRest now res 0 false s.blt.timers ∧
      p.calls = passCalls now res 0 false s.blt.timers ∧
      (p.changeFlg = false → p.blt.timers.Sublist s.blt.timers) ∧
      bltSoftTimerProcess now res s =
        (⟨if p.changeFlg then bltSoftTimerSort p.blt else p.blt,
          wakeupFor now (if p.changeFlg then bltSoftTimerSort p.blt else p.blt).timers⟩,
            p.calls) := by
  obtain ⟨x, hx, hexp⟩ := h
  have h0 : s.blt.currentNum ≠ 0 := by
    intro h0
    rw [head_timers, if_pos h0] at hx
    cases hx
  rw [head_timers, if_neg h0] at hx
  obtain rfl := Option.some.inj hx
  obtain ⟨ht, hc, hf⟩ := processLoop_spec (p := ⟨s.blt, [], false⟩) now res length_timers.le
    (List.nil_append s.blt.timers).symm
  refine ⟨_, ht, hc, fun hflg => ht ▸ hf hflg, ?_⟩
  unfold bltSoftTimerProcess
  simp only [if_neg h0, hexp, Bool.not_true, Bool.false_eq_true, if_false, List.length_nil]
  generalize processLoop now res s.blt.currentNum 0 ⟨s.blt, [], false⟩ = p
  by_cases hleft : p.blt.currentNum = 0
  · rw [if_neg (not_not_intro hleft), sort_empty hleft, ite_self, wakeupFor,
      head_timers, if_pos hleft]
    rfl
  · rw [if_pos hleft, nearWakeup_eq]
    split <;> exact hleft

/-! ### Runs -/

theorem TimerOk.sort (hroom : b.currentNum ≤ maxTimerNum)
    (hrange : InRange (bltSoftTimerSort b).timers) : TimerOk (bltSoftTimerSort b) :=
  ⟨hroom, sort_timers (hrange.perm (sort_perm b).symm)⟩

theorem TimerOk.of_sublist (h : TimerOk s.blt) (hsub : b.timers.Sublist s.blt.timers) :
    TimerOk b := by
  refine ⟨?_, h.sorted.sublist hsub⟩
  rw [← length_timers]
  exact hsub.length_le.trans (length_timers.trans_le h.room)

theorem TimerOk.process (h : TimerOk s.blt)
    (hrange : InRange (bltSoftTimerProcess now res s).1.blt.timers) :
    TimerOk (bltSoftTimerProcess now res s).1.blt := by
  by_cases hhead : HeadExpired now s.blt.timers
  · obtain ⟨p, ht, -, hsub, hp⟩ := process_due res hhead
    rw [hp] at hrange ⊢
    cases hflg : p.changeFlg with
    | false =>
      simp only [Bool.false_eq_true, if_false]
      exact h.of_sublist (hsub hflg)
    | true =>
      simp only [hflg, if_true] at hrange ⊢
      refine .sort ?_ hrange
      rw [← length_timers, ht]
      exact (length_passRest_le 0 false _).trans (length_timers.trans_le h.room)
  · rw [process_idle hhead]
    exact h

theorem TimerOk.add {func : Cb} {intervalUs : Tick} (h : TimerOk s.blt)
    (hrange : InRange (bltSoftTimerAdd now func intervalUs s).1.blt.timers) :
    TimerOk (bltSoftTimerAdd now func intervalUs s).1.blt := by
  by_cases hfull : s.blt.currentNum ≥ maxTimerNum
  · rw [bltSoftTimerAdd, if_pos hfull]
    exact h
  · rw [bltSoftTimerAdd, if_neg hfull] at hrange ⊢
    exact .sort (Nat.lt_of_not_le hfull) hrange

section
variable [DecidableEq Cb]

theorem TimerOk.delete (h : TimerOk s.blt) (now : Tick) (func : Cb) :
    TimerOk (bltSoftTimerDelete now func s).1.blt := by
  unfold bltSoftTimerDelete
  split
  · rename_i i hfind
    have hi : i < s.blt.currentNum := List.mem_range.mp (List.mem_of_find?_eq_some hfind)
    refine h.of_sublist ?_
    rw [timers_delete hi]
    exact List.eraseIdx_sublist ..
  · exact h

/-- After the step the expiry times are in range. -/
def StaysInRange (s : TimerState Cb) (e : TimerEvent Cb) : Prop :=
  InRange (timerStep s e).blt.timers

theorem TimerOk.step (h : TimerOk s.blt) {e : TimerEvent Cb} (hrange : StaysInRange s e) :
    TimerOk (timerStep s e).blt := by
  cases e with
  | add now func intervalUs => exact h.add hrange
  | delete now func => exact h.delete now func
  | process now res => exact h.process hrange

theorem timerOk_reach (h : ((timerSys Cb).restrict StaysInRange).Reach s) : TimerOk s.blt := by
  refine h.inv (P := fun s => TimerOk s.blt) (fun s h0 => ⟨?_, ?_⟩) ?_
  · rw [show s.blt.currentNum = 0 from h0]
    exact Nat.zero_le _
  · have hnil : s.blt.timers = [] := List.length_eq_zero_iff.mp (length_timers.trans h0)
    rw [hnil]
    exact .nil
  · rintro s e t hs ⟨hrange, rfl⟩
    exact hs.step hrange

/-- **One pass** over any table a run leads to. -/
theorem softTimer_process (h : ((timerSys Cb).restrict StaysInRange).Reach s) (now : Tick)
    (res : Nat → Int) :
    (HeadExpired now s.blt.timers → NoSkip now res 0 s.blt.timers →
      InRange (bltSoftTimerProcess now res s).1.blt.timers → ∃ t calls,
        bltSoftTimerProcess now res s = (t, calls) ∧
        calls = s.blt.timers.filter (fun x => bltIsTimerExpired x.t now) ∧
        t.blt.timers.Perm (survivors now res 0 s.blt.timers) ∧ TimerOk t.blt ∧
        t.appWakeup = wakeupFor now t.blt.timers) ∧
    (¬ HeadExpired now s.blt.timers →
      bltSoftTimerProcess now res s =
        ({ s with appWakeup := if s.blt.currentNum = 0 then none else s.appWakeup }, []) ∧
      ((∀ x ∈ s.blt.timers.head?, (now + bltTimerSafeMarginPre - x.t).toNat ≥ 2 ^ 31) →
        ∀ x ∈ s.blt.timers, bltIsTimerExpired x.t now = false)) := by
  have hok := timerOk_reach h
  refine ⟨fun hhead hno hrange => ?_, fun hhead => ⟨process_idle hhead, fun hcome x hx => ?_⟩⟩
  · obtain ⟨p, ht, hc, -, hp⟩ := process_due res hhead
    obtain ⟨hrest, hcalls⟩ := passRest_eq hno
    have hokp := hok.process hrange
    rw [hp] at hokp
    refine ⟨_, _, hp, hc.trans hcalls, ?_, hokp, rfl⟩
    rw [← hrest, ← ht]
    cases p.changeFlg with
    | false => exact .refl _
    | true => exact sort_perm p.blt
  · cases hl : s.blt.timers with
    | nil =>
      rw [hl] at hx
      cases hx
    | cons y l =>
      rw [hl] at hx hcome
      have hy := hcome y rfl
      rcases List.mem_cons.mp hx with rfl | hx
      · refine Bool.eq_false_iff.mpr fun hexp => hhead ⟨x, ?_, hexp⟩
        rw [hl]
        rfl
      · have hsorted := hok.sorted
        rw [hl] at hsorted
        exact not_expired_of_head hy (List.rel_of_pairwise_cons hsorted hx)

end

/-! ### A timer of ten seconds -/

def noTimers : TimerState Nat := ⟨⟨fun _ => ⟨0, 0, 0⟩, 0⟩, none⟩

def tenSeconds : TimerState Nat := timerStep noTimers (.add 0 1 10000000)

theorem reach_tenSeconds : ((timerSys Nat).restrict StaysInRange).Reach tenSeconds := by
  have hempty : ((timerSys Nat).restrict StaysInRange).Reach noTimers :=
    .init (show noTimers.blt.currentNum = 0 from rfl)
  exact hempty.step (e := .add 0 1 10000000) ⟨⟨0, by decide +kernel⟩, rfl⟩

theorem softTimer_process_tenSeconds : ∃ t calls,
    bltSoftTimerProcess 160000000 (fun _ => 0) tenSeconds = (t, calls) ∧ calls.length = 1 ∧
      TimerOk t.blt := by
  obtain ⟨t, calls, hp, hc, -, hok, -⟩ :=
    (softTimer_process reach_tenSeconds 160000000 fun _ => 0).1
    ⟨_, rfl, by decide +kernel⟩ (by decide +kernel) ⟨0, by decide +kernel⟩
  exact ⟨t, calls, hp, hc ▸ by decide +kernel, hok⟩

/-- A pass that keeps a timer which is ten seconds away leaves no wake-up. -/
theorem process_far_noWakeup : ¬ ∀ s :
    TimerState Nat, ((timerSys Nat).restrict StaysInRange).Reach s →
    ∀ now res, (bltSoftTimerProcess now res s).1.blt.timers ≠ [] →
      (bltSoftTimerProcess now res s).1.appWakeup =
        (bltSoftTimerProcess now res s).1.blt.timers.head?.map BltTimeEvent.t := by
  intro h
  exact absurd (h _ reach_tenSeconds 160000000 (fun _ => 0)
    (List.ne_nil_of_length_pos (by decide +kernel))) (by decide +kernel)

end PirMesh
